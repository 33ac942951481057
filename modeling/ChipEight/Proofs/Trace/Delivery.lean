import ChipEight.Trace.Dispatcher

/-!
# The delivery of events

A dispatcher hands an event to its registered observers one after another. Handing it to one of
them changes no other, and nobody registers twice, so every registered observer receives every
event once. A recorder then remembers the latest of them, as many as it has room for, and a
logger has written each of them to the log.

`Dispatcher.Records` is kept by whatever is done to a dispatcher, with the entries of the
recorder as its parameter.

## Main results

* `Dispatcher.Records.emitAll` — a recorder receives all events that are emitted.
* `Dispatcher.entries_emitAll` — what is logged of them.
-/

namespace ChipEight

namespace Trace

namespace Observer

/-- What an observer writes to the log does not depend on what it has received before. -/
theorem entries_handle (o : Observer) (e e' : Event) :
    ((o.handle e).1.handle e').2 = (o.handle e').2 := by
  cases o with
  | recorder events => rfl
  | logger => rfl

end Observer

namespace Dispatcher

variable {d : Dispatcher} {id : Nat}

/-! ## One event -/

/-- What the observer `id` writes to the log of an event. -/
def entriesBy (d : Dispatcher) (e : Event) (id : Nat) : List LogEntry :=
  (d.observer? id).elim [] fun o => (o.handle e).2

/-- What is logged of an event. -/
def entriesOf (d : Dispatcher) (e : Event) : List LogEntry := d.registered.flatMap (d.entriesBy e)

theorem registered_deliver (d : Dispatcher) (id : Nat) (e : Event) :
    (d.deliver id e).1.registered = d.registered := by
  unfold deliver
  split
  · rfl
  · rfl

/-- Handing an event to one observer changes no other. -/
theorem observer?_deliver (d : Dispatcher) (id : Nat) (e : Event) (i : Nat) :
    (d.deliver id e).1.observer? i =
      if i = id then (d.observer? i).map fun o => (o.handle e).1 else d.observer? i := by
  unfold deliver observer?
  by_cases hsame : i = id
  · subst hsame
    rw [if_pos rfl]
    cases hobserver : d.observers[i]? with
    | none => exact hobserver
    | some o =>
        have hlt : i < d.observers.length := (List.getElem?_eq_some_iff.mp hobserver).1
        simp [hlt]
  · rw [if_neg hsame]
    cases d.observers[id]? with
    | none => rfl
    | some o => exact List.getElem?_set_ne (Ne.symm hsame)

theorem entries_deliver (d : Dispatcher) (id : Nat) (e : Event) :
    (d.deliver id e).2 = d.entriesBy e id := by
  unfold deliver entriesBy observer?
  cases d.observers[id]? <;> rfl

/-- What an observer writes does not depend on who has received what. -/
theorem entriesBy_deliver (d : Dispatcher) (id : Nat) (e e' : Event) :
    (d.deliver id e).1.entriesBy e' = d.entriesBy e' := by
  funext i
  unfold entriesBy
  rw [observer?_deliver]
  split
  · cases d.observer? i with
    | none => rfl
    | some o => exact o.entries_handle e e'
  · rfl

theorem registered_deliverAll (e : Event) (ids : List Nat) :
    ∀ d : Dispatcher, (d.deliverAll e ids).1.registered = d.registered := by
  induction ids with
  | nil =>
      intro d
      rfl
  | cons id ids ih =>
      intro d
      exact (ih _).trans (d.registered_deliver id e)

/-- An event is handed to every observer on the list, and once if none is listed twice. -/
theorem observer?_deliverAll (e : Event) (i : Nat) (ids : List Nat) :
    ∀ d : Dispatcher, ids.Nodup → (d.deliverAll e ids).1.observer? i =
      if i ∈ ids then (d.observer? i).map fun o => (o.handle e).1 else d.observer? i := by
  induction ids with
  | nil =>
      intro d _
      rfl
  | cons id ids ih =>
      intro d hnodup
      obtain ⟨hother, hrest⟩ := List.nodup_cons.mp hnodup
      refine (ih (d.deliver id e).1 hrest).trans ?_
      rw [observer?_deliver]
      by_cases hsame : i = id
      · subst hsame
        rw [if_neg hother, if_pos rfl, if_pos List.mem_cons_self]
      · rw [if_neg hsame]
        simp only [List.mem_cons, hsame, false_or]

theorem entries_deliverAll (e : Event) (ids : List Nat) :
    ∀ d : Dispatcher, (d.deliverAll e ids).2 = ids.flatMap (d.entriesBy e) := by
  induction ids with
  | nil =>
      intro d
      rfl
  | cons id ids ih =>
      intro d
      show (d.deliver id e).2 ++ ((d.deliver id e).1.deliverAll e ids).2 = _
      rw [ih, entries_deliver, entriesBy_deliver, List.flatMap_cons]

theorem entriesBy_deliverAll (e e' : Event) (ids : List Nat) :
    ∀ d : Dispatcher, (d.deliverAll e ids).1.entriesBy e' = d.entriesBy e' := by
  induction ids with
  | nil =>
      intro d
      rfl
  | cons id ids ih =>
      intro d
      exact (ih _).trans (d.entriesBy_deliver id e e')

theorem registered_emit (d : Dispatcher) (e : Event) : (d.emit e).1.registered = d.registered :=
  registered_deliverAll e d.registered d

/-- An event is handed to everybody who is registered, and once if nobody is registered twice. -/
theorem observer?_emit (h : d.registered.Nodup) (e : Event) (i : Nat) :
    (d.emit e).1.observer? i =
      if i ∈ d.registered then (d.observer? i).map fun o => (o.handle e).1 else d.observer? i :=
  observer?_deliverAll e i d.registered d h

/-- An event that nobody observes leaves no trace. -/
theorem emit_of_not_hasObservers (h : d.hasObservers = false) (e : Event) : d.emit e = (d, []) := by
  have hnobody : d.registered = [] := by simpa [hasObservers] using h
  unfold emit
  rw [hnobody]
  rfl

/-! ## Many events -/

/-- Hands events to all registered observers, one after another. -/
def emitAll (d : Dispatcher) : List Event → Dispatcher × List LogEntry
  | [] => (d, [])
  | e :: es => (((d.emit e).1.emitAll es).1, (d.emit e).2 ++ ((d.emit e).1.emitAll es).2)

theorem emitAll_append (es es' : List Event) : ∀ d : Dispatcher,
    d.emitAll (es ++ es') =
      (((d.emitAll es).1.emitAll es').1, (d.emitAll es).2 ++ ((d.emitAll es).1.emitAll es').2) := by
  induction es with
  | nil =>
      intro d
      rfl
  | cons e es ih =>
      intro d
      simp only [List.cons_append, emitAll, ih, List.append_assoc]

theorem registered_emitAll (es : List Event) :
    ∀ d : Dispatcher, (d.emitAll es).1.registered = d.registered := by
  induction es with
  | nil =>
      intro d
      rfl
  | cons e es ih =>
      intro d
      exact (ih _).trans (d.registered_emit e)

/-- What is logged of an event does not depend on the events before it. -/
theorem entriesOf_emit (d : Dispatcher) (e : Event) : (d.emit e).1.entriesOf = d.entriesOf := by
  funext e'
  unfold entriesOf
  rw [registered_emit]
  exact congrArg d.registered.flatMap (entriesBy_deliverAll e e' d.registered d)

theorem entriesOf_emitAll (es : List Event) :
    ∀ d : Dispatcher, (d.emitAll es).1.entriesOf = d.entriesOf := by
  induction es with
  | nil =>
      intro d
      rfl
  | cons e es ih =>
      intro d
      exact (ih _).trans (d.entriesOf_emit e)

/-- Every registered logger writes every event to the log, one event after another. -/
theorem entries_emitAll (es : List Event) :
    ∀ d : Dispatcher, (d.emitAll es).2 = es.flatMap d.entriesOf := by
  induction es with
  | nil =>
      intro d
      rfl
  | cons e es ih =>
      intro d
      have hentries : (d.emit e).2 = d.entriesOf e := entries_deliverAll e d.registered d
      rw [List.flatMap_cons, ← hentries, ← d.entriesOf_emit e, ← ih]
      rfl

/-! ## Recorders -/

/-- The observer `id` is registered, nobody is registered twice, and the observer is a recorder
that has got as far as `q`. -/
structure Records (d : Dispatcher) (id : Nat) (q : Recent Event) : Prop where
  nodup : d.registered.Nodup
  registered : id ∈ d.registered
  recorder : d.observer? id = some (.recorder q)

theorem eventsOf_of_recorder {q : Recent Event} (h : d.observer? id = some (.recorder q)) :
    d.eventsOf id = q.toList := by
  unfold eventsOf
  rw [h]
  rfl

theorem nodup_register (h : d.registered.Nodup) (i : Nat) : (d.register i).registered.Nodup := by
  unfold register
  split
  · exact h
  next hnew =>
    have hfresh : i ∉ d.registered := by simpa using hnew
    rw [List.nodup_append]
    refine ⟨h, List.pairwise_singleton _ i, ?_⟩
    intro j hj k hk hsame
    rw [List.mem_singleton.mp hk] at hsame
    exact hfresh (hsame ▸ hj)

theorem observer?_register (d : Dispatcher) (i : Nat) :
    (d.register i).observer? = d.observer? := by
  unfold register
  split
  · rfl
  · rfl

theorem mem_register {i j : Nat} : i ∈ (d.register j).registered ↔ i ∈ d.registered ∨ i = j := by
  unfold register
  split
  next hknown =>
    have hmem : j ∈ d.registered := by simpa using hknown
    constructor
    · exact Or.inl
    · rintro (h | rfl)
      · exact h
      · exact hmem
  · simp

/-- A recorder that has just been made known and registered. -/
theorem records_new (h : d.registered.Nodup) (q : Recent Event) :
    Records ((d.add (.recorder q)).2.register (d.add (.recorder q)).1)
      (d.add (.recorder q)).1 q := by
  have hknown : (d.add (.recorder q)).2.observer? (d.add (.recorder q)).1 =
      some (.recorder q) := List.getElem?_concat_length
  have hadded : (d.add (.recorder q)).2.registered.Nodup := h
  refine ⟨nodup_register hadded _, mem_register.mpr (.inr rfl), ?_⟩
  rw [observer?_register]
  exact hknown

namespace Records

variable {q : Recent Event}

theorem eventsOf (h : Records d id q) : d.eventsOf id = q.toList :=
  eventsOf_of_recorder h.recorder

/-- A new observer gets a number of its own. -/
theorem add (h : Records d id q) (o : Observer) : Records (d.add o).2 id q := by
  refine ⟨h.nodup, h.registered, ?_⟩
  have hlt : id < d.observers.length := (List.getElem?_eq_some_iff.mp h.recorder).1
  exact (List.getElem?_append_left hlt).trans h.recorder

theorem register (h : Records d id q) (i : Nat) : Records (d.register i) id q := by
  refine ⟨nodup_register h.nodup i, mem_register.mpr (.inl h.registered), ?_⟩
  rw [observer?_register]
  exact h.recorder

theorem unregister (h : Records d id q) {i : Nat} (hother : i ≠ id) :
    Records (d.unregister i) id q :=
  ⟨h.nodup.erase i, (List.mem_erase_of_ne (Ne.symm hother)).mpr h.registered, h.recorder⟩

theorem emit (h : Records d id q) (e : Event) : Records (d.emit e).1 id (q.push e) := by
  have hkept := d.registered_emit e
  refine ⟨hkept ▸ h.nodup, hkept ▸ h.registered, ?_⟩
  rw [observer?_emit h.nodup, if_pos h.registered, h.recorder]
  rfl

/-- A recorder receives all events that are emitted, in their order. -/
theorem emitAll (es : List Event) :
    ∀ {d : Dispatcher} {q : Recent Event}, Records d id q →
      Records (d.emitAll es).1 id (es.foldl Recent.push q) := by
  induction es with
  | nil =>
      intro d q h
      exact h
  | cons e es ih =>
      intro d q h
      exact ih (h.emit e)

end Records

end Dispatcher

end Trace

end ChipEight
