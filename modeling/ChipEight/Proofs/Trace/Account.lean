import ChipEight.Proofs.Trace.Delivery

/-!
# The account of an observer

A dispatcher may know many observers, and anything may be done to any of them at any time. For one
of them little of it matters: when it is registered and unregistered, what is reported in between,
what it is handed past the dispatcher, and when it is cleared. `Dispatcher.received` lists the
events that it gets, each of them once, and a recorder keeps the latest of those that it got since
it was last cleared.

Nobody gets registered twice by an operation. So a report reaches everybody who is registered
once, which is what the step lemma `Dispatcher.recorder_perform` says; the rest is induction on the
operations.

## Main results

* `Dispatcher.mem_registered_performAll` — who is registered.
* `Dispatcher.recorder_performAll` — what a recorder holds as long as it is not cleared.
* `Dispatcher.events_accounted` — both, and what follows for the messages and for an observer that
  is registered again.
-/

namespace ChipEight

namespace Trace

/-- What can be reported to everybody who is registered. -/
inductive Report
  | instruction (pc opcode : Int) (message : String)
  | draw (pc opcode : Int) (collision : Option Bool)
  | fault (pc : Int) (opcode : Option Int) (message dump : String)

/-- The event by which something is reported. -/
def Report.event : Report → Event
  | .instruction pc opcode message => .instruction pc opcode message
  | .draw pc opcode collision => .draw pc opcode collision
  | .fault pc opcode message dump => .fault pc opcode message dump

namespace Observer

theorem messages_none (o : Observer) : o.messages none = o.events.map (·.message) :=
  congrArg (List.map _) (List.filter_eq_self.mpr fun _ _ => rfl)

/-- The messages of one kind are those of the events of that kind. -/
theorem messages_some (o : Observer) (kind : EventKind) :
    o.messages (some kind) = (o.events.filter (·.kind = kind)).map (·.message) := by
  have hkind : ∀ e ∈ o.events, (some kind).all (· == e.kind) = decide (e.kind = kind) := by
    intro e _
    show decide (kind = e.kind) = decide (e.kind = kind)
    exact decide_eq_decide.mpr eq_comm
  exact congrArg (List.map _) (List.filter_congr hkind)

theorem messages_some_sublist (o : Observer) (kind : EventKind) :
    (o.messages (some kind)).Sublist (o.messages none) := by
  rw [messages_some, messages_none]
  exact List.filter_sublist.map _

end Observer

namespace Dispatcher

/-! ## Operations -/

/-- What can be done to a dispatcher and to the observers that it knows. -/
inductive Op
  | register (id : Nat)
  | unregister (id : Nat)
  /-- Emits the event of a report. -/
  | report (r : Report)
  /-- Hands an event to one observer, whether that is registered or not. -/
  | handle (id : Nat) (e : Event)
  | clear (id : Nat)

/-- The dispatcher behind an operation. -/
def perform (d : Dispatcher) : Op → Dispatcher
  | .register id => d.register id
  | .unregister id => d.unregister id
  | .report r => (d.emit r.event).1
  | .handle id e => (d.deliver id e).1
  | .clear id => d.clear id

/-- The dispatcher behind a sequence of operations. -/
def performAll (d : Dispatcher) (ops : List Op) : Dispatcher := ops.foldl perform d

/-- The event that an operation hands to the observer `id` past the dispatcher. -/
def Op.handed? (id : Nat) : Op → Option Event
  | .handle i e => if i = id then some e else none
  | _ => none

/-- The event of an operation for an observer `id` that is registered. -/
def Op.reported? (id : Nat) : Op → Option Event
  | .report r => some r.event
  | o => o.handed? id

/-- The event that the observer `id` gets by an operation. -/
def given? (d : Dispatcher) (id : Nat) (o : Op) : Option Event :=
  if id ∈ d.registered then o.reported? id else o.handed? id

/-- The events that the observer `id` gets by a sequence of operations, the earliest first. -/
def received (d : Dispatcher) (id : Nat) : List Op → List Event
  | [] => []
  | o :: ops => (d.given? id o).toList ++ (d.perform o).received id ops

variable {d : Dispatcher} {id : Nat} {o : Op} {ops : List Op} {q : Recent Event}

theorem performAll_append (d : Dispatcher) (ops ops' : List Op) :
    d.performAll (ops ++ ops') = (d.performAll ops).performAll ops' := List.foldl_append

theorem received_append (d : Dispatcher) (id : Nat) (ops ops' : List Op) :
    d.received id (ops ++ ops') = d.received id ops ++ (d.performAll ops).received id ops' := by
  induction ops generalizing d with
  | nil => rfl
  | cons o ops ih =>
      rw [List.cons_append, received, received, ih, List.append_assoc]
      rfl

/-! ## Registration -/

/-- Nobody gets registered twice. -/
theorem nodup_perform (h : d.registered.Nodup) (o : Op) : (d.perform o).registered.Nodup := by
  cases o with
  | register i => exact nodup_register h i
  | unregister i => exact h.erase i
  | report r => exact (d.registered_emit r.event).symm ▸ h
  | handle i e => exact (d.registered_deliver i e).symm ▸ h
  | clear i => exact h

theorem nodup_performAll (h : d.registered.Nodup) (ops : List Op) :
    (d.performAll ops).registered.Nodup := by
  induction ops generalizing d with
  | nil => exact h
  | cons o ops ih => exact ih (nodup_perform h o)

/-- To register an observer again changes nothing. -/
theorem register_of_mem (h : id ∈ d.registered) : d.register id = d :=
  if_pos (List.contains_iff_mem.mpr h)

/-- To unregister an observer that is not registered changes nothing. -/
theorem unregister_of_notMem (h : id ∉ d.registered) : d.unregister id = d := by
  unfold unregister
  rw [List.erase_of_not_mem h]

/-- An operation registers an observer, or leaves it registered, or it does not. -/
theorem mem_registered_perform (h : d.registered.Nodup) (o : Op) :
    id ∈ (d.perform o).registered ↔ o = .register id ∨ id ∈ d.registered ∧ o ≠ .unregister id := by
  cases o with
  | register i =>
      show id ∈ (d.register i).registered ↔ _
      rw [mem_register, Op.register.injEq, or_comm, eq_comm]
      simp
  | unregister i =>
      show id ∈ d.registered.erase i ↔ _
      rw [h.mem_erase_iff, ne_eq, ne_eq, Op.unregister.injEq, and_comm, eq_comm]
      simp
  | report r =>
      show id ∈ (d.emit r.event).1.registered ↔ _
      rw [registered_emit]
      simp
  | handle i e =>
      show id ∈ (d.deliver i e).1.registered ↔ _
      rw [registered_deliver]
      simp
  | clear i =>
      show id ∈ d.registered ↔ _
      simp

/-- An observer stays registered until it is unregistered. -/
theorem mem_registered_of_notMem (h : d.registered.Nodup) (hmem : id ∈ d.registered)
    (hstays : .unregister id ∉ ops) : id ∈ (d.performAll ops).registered := by
  induction ops generalizing d with
  | nil => exact hmem
  | cons o ops ih =>
      rw [List.mem_cons, not_or] at hstays
      exact ih (nodup_perform h o)
        ((mem_registered_perform h o).mpr (.inr ⟨hmem, Ne.symm hstays.1⟩)) hstays.2

/-- Who is registered was registered, and not unregistered since. -/
theorem mem_registered_performAll (h : d.registered.Nodup) :
    id ∈ (d.performAll ops).registered ↔
      (id ∈ d.registered ∧ .unregister id ∉ ops) ∨
      ∃ before after, ops = before ++ .register id :: after ∧ .unregister id ∉ after := by
  constructor
  · intro hmem
    induction ops generalizing d with
    | nil => exact .inl ⟨hmem, List.not_mem_nil⟩
    | cons o ops ih =>
        rcases ih (nodup_perform h o) hmem with ⟨hbehind, hstays⟩ | ⟨before, after, rfl, hstays⟩
        · rcases (mem_registered_perform h o).mp hbehind with rfl | ⟨hbefore, hother⟩
          · exact .inr ⟨[], ops, rfl, hstays⟩
          · refine .inl ⟨hbefore, ?_⟩
            rw [List.mem_cons, not_or]
            exact ⟨Ne.symm hother, hstays⟩
        · exact .inr ⟨o :: before, after, rfl, hstays⟩
  · rintro (⟨hmem, hstays⟩ | ⟨before, after, rfl, hstays⟩)
    · exact mem_registered_of_notMem h hmem hstays
    · have hbefore := nodup_performAll h before
      rw [performAll_append]
      exact mem_registered_of_notMem (d := (d.performAll before).perform (.register id))
        (nodup_perform hbefore _) ((mem_registered_perform hbefore _).mpr (.inl rfl)) hstays

/-! ## Recorders -/

theorem observer?_clear (d : Dispatcher) (i : Nat) :
    (d.clear i).observer? id =
      if i = id then (d.observer? id).map Observer.clear else d.observer? id := by
  show (d.observers.modify i Observer.clear)[id]? = _
  rw [List.getElem?_modify]
  split
  · rfl
  · exact Option.map_id'

/-- A recorder adds the event that it gets to those it has, unless it is cleared. -/
theorem recorder_perform (h : d.registered.Nodup) (hrecorder : d.observer? id = some (.recorder q))
    (hkeeps : o ≠ .clear id) :
    (d.perform o).observer? id =
      some (.recorder ((d.given? id o).toList.foldl Recent.push q)) := by
  cases o with
  | register i =>
      have hnone : d.given? id (.register i) = none := ite_self none
      rw [hnone, perform, observer?_register]
      exact hrecorder
  | unregister i =>
      have hnone : d.given? id (.unregister i) = none := ite_self none
      rw [hnone]
      exact hrecorder
  | report r =>
      rw [perform, observer?_emit h, hrecorder, given?]
      split <;> rfl
  | handle i e =>
      have hgiven : d.given? id (.handle i e) = if i = id then some e else none := ite_self _
      rw [perform, observer?_deliver, hrecorder, hgiven]
      by_cases hsame : id = i
      · rw [if_pos hsame, if_pos hsame.symm]
        rfl
      · rw [if_neg hsame, if_neg (Ne.symm hsame)]
        rfl
  | clear i =>
      have hnone : d.given? id (.clear i) = none := ite_self none
      have hother : i ≠ id := fun hsame => hkeeps (hsame ▸ rfl)
      rw [hnone, perform, observer?_clear, if_neg hother]
      exact hrecorder

/-- A recorder adds the events that it gets to those it has, as long as it is not cleared. -/
theorem recorder_performAll (h : d.registered.Nodup)
    (hrecorder : d.observer? id = some (.recorder q)) (hkeeps : .clear id ∉ ops) :
    (d.performAll ops).observer? id =
      some (.recorder ((d.received id ops).foldl Recent.push q)) := by
  induction ops generalizing d q with
  | nil => exact hrecorder
  | cons o ops ih =>
      rw [List.mem_cons, not_or] at hkeeps
      rw [received, List.foldl_append]
      exact ih (nodup_perform h o) (recorder_perform h hrecorder (Ne.symm hkeeps.1)) hkeeps.2

/-- A recorder remains a recorder with the same room. -/
theorem exists_recorder_performAll (h : d.registered.Nodup)
    (hrecorder : d.observer? id = some (.recorder q)) (ops : List Op) :
    ∃ q', (d.performAll ops).observer? id = some (.recorder q') ∧ q'.capacity = q.capacity := by
  induction ops generalizing d q with
  | nil => exact ⟨q, hrecorder, rfl⟩
  | cons o ops ih =>
      by_cases hclear : o = .clear id
      · have hcleared : (d.perform o).observer? id = some (.recorder q.clear) := by
          rw [hclear, perform, observer?_clear, if_pos rfl, hrecorder]
          rfl
        obtain ⟨q', hbehind, hroom⟩ := ih (nodup_perform h o) hcleared
        exact ⟨q', hbehind, hroom⟩
      · obtain ⟨q', hbehind, hroom⟩ :=
          ih (nodup_perform h o) (recorder_perform h hrecorder hclear)
        exact ⟨q', hbehind, hroom.trans (Recent.capacity_foldl_push _ q)⟩

/-- What a recorder has, if it is not cleared. -/
theorem eventsOf_performAll (h : d.registered.Nodup)
    (hrecorder : d.observer? id = some (.recorder q)) (hkeeps : .clear id ∉ ops) :
    (d.performAll ops).eventsOf id =
      Recent.rear q.capacity (d.eventsOf id ++ d.received id ops) := by
  rw [eventsOf_of_recorder (recorder_performAll h hrecorder hkeeps), Recent.toList_foldl_push,
    eventsOf_of_recorder hrecorder]

/-- What a recorder has, if it had nothing at first and was cleared since. -/
theorem eventsOf_since_clear (h : d.registered.Nodup)
    (hrecorder : d.observer? id = some (.recorder q)) (hempty : q.toList = []) (ops : List Op) :
    ∃ past recent, ops = past ++ recent ∧ (past = [] ∨ ∃ front, past = front ++ [.clear id]) ∧
      .clear id ∉ recent ∧ (d.performAll ops).eventsOf id =
        Recent.rear q.capacity ((d.performAll past).received id recent) := by
  obtain ⟨past, recent, rfl, hpast, hkeeps⟩ := Recent.exists_since (.clear id) ops
  refine ⟨past, recent, rfl, hpast, hkeeps, ?_⟩
  obtain ⟨q', hrecorder', hroom⟩ := exists_recorder_performAll h hrecorder past
  have hstart : (d.performAll past).eventsOf id = [] := by
    rcases hpast with rfl | ⟨front, rfl⟩
    · exact (eventsOf_of_recorder hrecorder).trans hempty
    · obtain ⟨q'', hfront, -⟩ := exists_recorder_performAll h hrecorder front
      rw [performAll_append]
      show ((d.performAll front).clear id).eventsOf id = []
      rw [eventsOf, observer?_clear, if_pos rfl, hfront]
      exact Recent.toList_clear q''
  rw [performAll_append, eventsOf_performAll (nodup_performAll h past) hrecorder' hkeeps, hstart,
    hroom, List.nil_append]

/-! ## Absence -/

/-- An observer that is not registered gets what it is handed, and nothing else. -/
theorem received_of_notMem (h : d.registered.Nodup) (hout : id ∉ d.registered)
    (hstays : .register id ∉ ops) : d.received id ops = ops.filterMap (·.handed? id) := by
  induction ops generalizing d with
  | nil => rfl
  | cons o ops ih =>
      rw [List.mem_cons, not_or] at hstays
      have hbehind : id ∉ (d.perform o).registered := by
        rw [mem_registered_perform h, not_or, not_and]
        exact ⟨Ne.symm hstays.1, fun hmem => absurd hmem hout⟩
      rw [received, given?, if_neg hout, ih (nodup_perform h o) hbehind hstays.2,
        List.filterMap_cons]
      cases o.handed? id <;> rfl

/-- An observer that stays registered gets what is reported as well. -/
theorem received_of_mem (h : d.registered.Nodup) (hmem : id ∈ d.registered)
    (hstays : .unregister id ∉ ops) : d.received id ops = ops.filterMap (·.reported? id) := by
  induction ops generalizing d with
  | nil => rfl
  | cons o ops ih =>
      rw [List.mem_cons, not_or] at hstays
      have hbehind : id ∈ (d.perform o).registered :=
        (mem_registered_perform h o).mpr (.inr ⟨hmem, Ne.symm hstays.1⟩)
      rw [received, given?, if_pos hmem, ih (nodup_perform h o) hbehind hstays.2,
        List.filterMap_cons]
      cases o.reported? id <;> rfl

/-- Until an observer that was unregistered is registered again, nothing reaches it but what it is
handed; from then on it gets all again. -/
theorem received_of_absence (h : d.registered.Nodup) {between later : List Op}
    (hout : .register id ∉ between) (hback : .unregister id ∉ later) :
    d.received id (.unregister id :: between ++ .register id :: later) =
      between.filterMap (·.handed? id) ++ later.filterMap (·.reported? id) := by
  have hnone : ∀ d : Dispatcher, d.given? id (.unregister id) = none ∧
      d.given? id (.register id) = none := fun d => ⟨ite_self none, ite_self none⟩
  have hleft := nodup_perform h (.unregister id)
  have hgone : id ∉ (d.perform (.unregister id)).registered := by
    rw [mem_registered_perform h]
    simp
  have hbetween := nodup_performAll hleft between
  have hagain := (mem_registered_perform hbetween (.register id)).mpr (.inl rfl)
  rw [List.cons_append, received, (hnone d).1, received_append, received, (hnone _).2,
    received_of_notMem hleft hgone hout, received_of_mem (nodup_perform hbetween _) hagain hback]
  rfl

/-! ## Accounts -/

/-- The recorder `id` with room for `limit` events is right about the operations `ops`. -/
structure Accounts (d : Dispatcher) (id : Nat) (limit : Option Nat) (ops : List Op) : Prop where
  /-- It has the latest of the events that it got since it was last cleared. -/
  events : ∃ past recent, ops = past ++ recent ∧
    (past = [] ∨ ∃ front, past = front ++ [.clear id]) ∧ .clear id ∉ recent ∧
    (d.performAll ops).eventsOf id = Recent.rear limit ((d.performAll past).received id recent)
  /-- It tells their messages, and those of one kind apart. -/
  messages : ∃ o, (d.performAll ops).observer? id = some o ∧
    o.messages none = ((d.performAll ops).eventsOf id).map (·.message) ∧
    ∀ kind, (o.messages (some kind)).Sublist (o.messages none) ∧
      o.messages (some kind) =
        (((d.performAll ops).eventsOf id).filter (·.kind = kind)).map (·.message)
  /-- If it is unregistered now and registered again, it goes on with what is reported later. What
  it is handed reaches it all the time. -/
  resumed : ∀ between later, .register id ∉ between → .clear id ∉ between →
    .unregister id ∉ later → .clear id ∉ later →
    (d.performAll (ops ++ (.unregister id :: between ++ .register id :: later))).eventsOf id =
      Recent.rear limit ((d.performAll ops).eventsOf id ++
        (between.filterMap (·.handed? id) ++ later.filterMap (·.reported? id)))

theorem accounts (h : d.registered.Nodup) (hrecorder : d.observer? id = some (.recorder q))
    (hempty : q.toList = []) (ops : List Op) : d.Accounts id q.capacity ops where
  events := eventsOf_since_clear h hrecorder hempty ops
  messages := by
    obtain ⟨q', hrecorder', -⟩ := exists_recorder_performAll h hrecorder ops
    have hevents := eventsOf_of_recorder hrecorder'
    refine ⟨_, hrecorder', ?_, fun kind => ⟨Observer.messages_some_sublist _ kind, ?_⟩⟩
    · rw [hevents, Observer.messages_none]
      rfl
    · rw [hevents, Observer.messages_some]
      rfl
  resumed := by
    intro between later hout hkept hback hkeeps
    obtain ⟨q', hrecorder', hroom⟩ := exists_recorder_performAll h hrecorder ops
    have hbehind := nodup_performAll h ops
    have hall : .clear id ∉ (.unregister id :: between ++ .register id :: later : List Op) := by
      simp [hkept, hkeeps]
    rw [performAll_append, eventsOf_performAll hbehind hrecorder' hall,
      received_of_absence hbehind hout hback, hroom]

/-- Let anything be done to observers that nobody has registered yet. Behind it the registered ones
are those that were registered and not unregistered since, in an order in which none stands twice;
to register one of them again, or to unregister one of the others, would change nothing. A recorder
has the latest of the events that were reported while it was registered or that it was handed, in
their order and each of them once, since it was last cleared. -/
theorem events_accounted (observers : List Observer) (ops : List Op) :
    let d : Dispatcher := { observers }
    let d' := d.performAll ops
    d'.registered.Nodup ∧
    (d'.hasObservers = true ↔ d'.registered ≠ []) ∧
    (∀ id, id ∈ d'.registered ↔
      ∃ before after, ops = before ++ .register id :: after ∧ .unregister id ∉ after) ∧
    (∀ id ∈ d'.registered, d'.register id = d') ∧
    (∀ id, id ∉ d'.registered → d'.unregister id = d') ∧
    ∀ id limit, observers[id]? = some (.recorder (.empty limit)) → d.Accounts id limit ops := by
  intro d d'
  have hnobody : d.registered.Nodup := List.nodup_nil
  refine ⟨nodup_performAll hnobody ops, ?_, ?_, ?_, ?_, ?_⟩
  · simp [hasObservers]
  · intro id
    rw [mem_registered_performAll hnobody]
    exact or_iff_right fun hmem => List.not_mem_nil hmem.1
  · intro id hmem
    exact register_of_mem hmem
  · intro id hout
    exact unregister_of_notMem hout
  · intro id limit hrecorder
    exact accounts hnobody hrecorder (Recent.toList_empty limit) ops

/-- A recorder for two events, a logger, and a recorder for any number of events. -/
def audience : List Observer := [.recorder (.empty (some 2)), .logger, .recorder (.empty none)]

/-- The first recorder is registered twice, is handed an event, misses a report and comes back; the
other one is cleared while it is registered. -/
def comings : List Op :=
  [ .register 0, .register 0, .register 2, .report (.instruction 0x200 0x00E0 "00E0  CLS")
  , .unregister 1, .clear 2, .handle 0 { kind := .instruction, message := "by hand" }
  , .unregister 0, .report (.draw 0x200 0x00E0 none), .register 0
  , .report (.fault 0x202 none "stuck" "") ]

/-- The first recorder has lost the instruction for want of room, and never got the draw. -/
theorem audience_accounted :
    let d : Dispatcher := { observers := audience }
    let d' := d.performAll comings
    (d.Accounts 0 (some 2) comings ∧ d.Accounts 2 none comings) ∧
    d'.registered = [2, 0] ∧ (d'.eventsOf 0).map (·.message) = ["by hand", "panic: stuck"] ∧
    (d'.eventsOf 2).map (·.message) = ["display redraw", "panic: stuck"] := by
  intro d d'
  obtain ⟨-, -, -, -, -, haccounts⟩ := events_accounted audience comings
  exact ⟨⟨haccounts 0 (some 2) rfl, haccounts 2 none rfl⟩, by decide⟩

end Dispatcher

end Trace

end ChipEight
