import ChipEight.FrameBuffer

/-!
# Who gets which pictures

Of all that is asked of a renderer, only draws and subscriptions concern the frame buffer below it.
A draw adds its picture once to every subscription that there is by then, so a subscription gets
what is drawn since it was added. A subscriber may have more than one of them, and then it should
get every picture as often; `FrameBuffer.due` lists what it should get.

## Main results

* `FrameBuffer.frame_after`, `FrameBuffer.drawCount_after` — the picture that is shown, the count.
* `FrameBuffer.subscription_since` — what a subscription gets.
* `FrameBuffer.told_gained` — what a subscriber gets by one operation.
* `FrameBuffer.due_since`, `FrameBuffer.getLast?_due_of_ne_nil` — what it should get in the end.
-/

namespace ChipEight

namespace Renderer

/-- The picture that an operation draws. -/
def Op.drawn? : Op → Option Picture
  | .draw p => some p
  | _ => none

/-- The subscriber that an operation adds a subscription of. -/
def Op.subscriber? : Op → Option Nat
  | .subscribe who => some who
  | _ => none

/-- The pictures that are drawn by a sequence of operations. -/
def drawnIn (ops : List Op) : List Picture := ops.filterMap Op.drawn?

/-- The subscribers of the subscriptions that are added by a sequence of operations. -/
def subscribersIn (ops : List Op) : List Nat := ops.filterMap Op.subscriber?

end Renderer

namespace FrameBuffer

open Renderer (Op drawnIn subscribersIn)

/-- The frame buffer of a renderer behind an operation. -/
def behind (f : FrameBuffer) : Op → FrameBuffer
  | .draw p => f.draw p
  | .subscribe _ => f.subscribe
  | _ => f

/-- The frame buffer of a renderer behind a sequence of operations. -/
def after (f : FrameBuffer) (ops : List Op) : FrameBuffer := ops.foldl behind f

variable {f : FrameBuffer} {o : Op} {ops : List Op} {who held k : Nat}

theorem drawnIn_cons (o : Op) (ops : List Op) :
    drawnIn (o :: ops) = o.drawn?.toList ++ drawnIn ops := by
  unfold drawnIn
  rw [List.filterMap_cons]
  cases o.drawn? <;> rfl

theorem subscribersIn_cons (o : Op) (ops : List Op) :
    subscribersIn (o :: ops) = o.subscriber?.toList ++ subscribersIn ops := by
  unfold subscribersIn
  rw [List.filterMap_cons]
  cases o.subscriber? <;> rfl

theorem frame_behind (f : FrameBuffer) (o : Op) : (f.behind o).frame = o.drawn?.getD f.frame := by
  cases o <;> rfl

theorem drawCount_behind (f : FrameBuffer) (o : Op) :
    (f.behind o).drawCount = f.drawCount + o.drawn?.toList.length := by
  cases o <;> rfl

/-- An operation adds the picture that it draws to every subscription, or adds a subscription. -/
theorem subscribers_behind (f : FrameBuffer) (o : Op) : (f.behind o).subscribers =
    f.subscribers.map (· ++ o.drawn?.toList) ++ o.subscriber?.toList.map fun _ => [] := by
  have hsame : f.subscribers = f.subscribers.map (· ++ []) := by simp
  cases o with
  | draw p => exact (List.append_nil _).symm
  | subscribe who => exact congrArg (· ++ [[]]) hsame
  | image => exact hsame.trans (List.append_nil _).symm
  | save files path => exact hsame.trans (List.append_nil _).symm
  | text on off => exact hsame.trans (List.append_nil _).symm

/-- The picture that was drawn last is shown. -/
theorem frame_after (f : FrameBuffer) (ops : List Op) :
    (f.after ops).frame = (drawnIn ops).getLastD f.frame := by
  induction ops generalizing f with
  | nil => rfl
  | cons o ops ih =>
      rw [drawnIn_cons]
      refine (ih (f.behind o)).trans ?_
      rw [frame_behind]
      cases o.drawn? with
      | none => rfl
      | some p => exact (List.getLastD_cons ..).symm

theorem drawCount_after (f : FrameBuffer) (ops : List Op) :
    (f.after ops).drawCount = f.drawCount + (drawnIn ops).length := by
  induction ops generalizing f with
  | nil => rfl
  | cons o ops ih =>
      refine (ih (f.behind o)).trans ?_
      rw [drawCount_behind, drawnIn_cons, List.length_append, Nat.add_assoc]

/-! ## Subscriptions -/

theorem length_subscribers_behind (f : FrameBuffer) (o : Op) :
    (f.behind o).subscribers.length = f.subscribers.length + o.subscriber?.toList.length := by
  rw [subscribers_behind, List.length_append, List.length_map, List.length_map]

theorem length_subscribers_after (f : FrameBuffer) (ops : List Op) :
    (f.after ops).subscribers.length = f.subscribers.length + (subscribersIn ops).length := by
  induction ops generalizing f with
  | nil => rfl
  | cons o ops ih =>
      refine (ih (f.behind o)).trans ?_
      rw [length_subscribers_behind, subscribersIn_cons, List.length_append, Nat.add_assoc]

/-- A subscription gets every picture that is drawn. -/
theorem getElem?_subscribers_after (hk : k < f.subscribers.length) (ops : List Op) :
    (f.after ops).subscribers[k]? = f.subscribers[k]?.map (· ++ drawnIn ops) := by
  induction ops generalizing f with
  | nil =>
      show f.subscribers[k]? = f.subscribers[k]?.map (· ++ [])
      simp
  | cons o ops ih =>
      have hbehind : (f.behind o).subscribers[k]? =
          f.subscribers[k]?.map (· ++ o.drawn?.toList) := by
        rw [subscribers_behind, List.getElem?_append_left (by rwa [List.length_map]),
          List.getElem?_map]
      have hk' : k < (f.behind o).subscribers.length := by
        rw [length_subscribers_behind]
        exact Nat.lt_add_right _ hk
      refine (ih hk').trans ?_
      rw [hbehind, Option.map_map, drawnIn_cons]
      simp only [Function.comp_def, List.append_assoc]

/-- A new subscription gets every picture from now on. -/
theorem subscription_since (f : FrameBuffer) (before : List Op) (who : Nat) (since : List Op) :
    (f.after (before ++ .subscribe who :: since)).subscribers[
      f.subscribers.length + (subscribersIn before).length]? = some (drawnIn since) := by
  have hsplit : f.after (before ++ .subscribe who :: since) =
      ((f.after before).subscribe).after since := List.foldl_append
  have hlast : ((f.after before).subscribe).subscribers[(f.after before).subscribers.length]? =
      some [] := List.getElem?_concat_length
  have hlt : (f.after before).subscribers.length <
      ((f.after before).subscribe).subscribers.length := by
    show _ < ((f.after before).subscribers ++ [[]]).length
    rw [List.length_append]
    exact Nat.lt_succ_self _
  rw [hsplit, ← length_subscribers_after, getElem?_subscribers_after hlt, hlast]
  rfl

/-- Whoever has got a picture has got the one that is shown as the last. -/
def UpToDate (f : FrameBuffer) : Prop :=
  ∀ got ∈ f.subscribers, got ≠ [] → got.getLast? = some f.frame

theorem UpToDate.behind (h : f.UpToDate) (o : Op) : (f.behind o).UpToDate := by
  cases o with
  | draw p =>
      intro got hgot _
      obtain ⟨had, -, rfl⟩ := List.mem_map.mp hgot
      exact List.getLast?_concat
  | subscribe who =>
      intro got hgot hsome
      rcases List.mem_append.mp hgot with hold | hnew
      · exact h got hold hsome
      · exact absurd (List.mem_singleton.mp hnew) hsome
  | image => exact h
  | save files path => exact h
  | text on off => exact h

theorem UpToDate.after (h : f.UpToDate) (ops : List Op) : (f.after ops).UpToDate := by
  induction ops generalizing f with
  | nil => exact h
  | cons o ops ih => exact ih (h.behind o)

/-- The counts and the subscriptions of a frame buffer that was new are right behind `ops`. -/
structure Informs (f : FrameBuffer) (ops : List Op) : Prop where
  drawCount : f.drawCount = (drawnIn ops).length
  subscriptions : f.subscribers.length = (subscribersIn ops).length
  /-- A subscription has got the pictures that were drawn since it was added. -/
  since : ∀ before who since, ops = before ++ .subscribe who :: since →
    f.subscribers[(subscribersIn before).length]? = some (drawnIn since)
  upToDate : f.UpToDate

theorem informs_after (ops : List Op) : (({} : FrameBuffer).after ops).Informs ops := by
  have hnobody : UpToDate {} := nofun
  refine ⟨?_, ?_, ?_, hnobody.after ops⟩
  · exact (drawCount_after {} ops).trans (Nat.zero_add _)
  · exact (length_subscribers_after {} ops).trans (Nat.zero_add _)
  · rintro before who since rfl
    have hgot := subscription_since {} before who since
    rwa [show ({} : FrameBuffer).subscribers.length = 0 from rfl, Nat.zero_add] at hgot

/-! ## Subscribers -/

/-- What each subscription has got on the way from one frame buffer to another. -/
def gained (f f' : FrameBuffer) : List (List Picture) :=
  List.zipWith (fun had has => has.drop had.length) f.subscribers f'.subscribers

/-- What reaches the subscriber `who` if its subscriptions, among those of `holders`, get new
pictures one after another. -/
def told (holders : List Nat) (who : Nat) (new : List (List Picture)) : List Picture :=
  (holders.zip new).flatMap fun c => if c.1 = who then c.2 else []

/-- What is due to the subscriber `who` if it has `held` subscriptions at first: every picture that
is drawn, once for each subscription that it has by then. -/
def due (who held : Nat) : List Op → List Picture
  | [] => []
  | o :: ops => (o.drawn?.elim [] (List.replicate held)) ++
      due who (held + o.subscriber?.toList.count who) ops

/-- Every subscription gets the picture that is drawn. -/
theorem gained_behind (f : FrameBuffer) (o : Op) :
    f.gained (f.behind o) = List.replicate f.subscribers.length o.drawn?.toList := by
  unfold gained
  rw [subscribers_behind]
  generalize o.drawn?.toList = new
  induction f.subscribers with
  | nil => rfl
  | cons had rest ih =>
      rw [List.map_cons, List.cons_append, List.zipWith_cons_cons, ih, List.drop_left,
        List.length_cons, List.replicate_succ]

theorem told_replicate (holders : List Nat) (who : Nat) (new : List Picture) :
    told holders who (List.replicate holders.length new) =
      (List.replicate (holders.count who) new).flatten := by
  unfold told
  induction holders with
  | nil => rfl
  | cons w holders ih =>
      rw [List.length_cons, List.replicate_succ, List.zip_cons_cons, List.flatMap_cons, ih,
        List.count_cons]
      by_cases hsame : w = who
      · simp [hsame, List.replicate_succ]
      · simp [hsame]

/-- By an operation a subscriber gets the picture that is drawn, once for each of its
subscriptions. -/
theorem told_gained {holders : List Nat} (h : holders.length = f.subscribers.length) (who : Nat)
    (o : Op) : told holders who (f.gained (f.behind o)) =
      o.drawn?.elim [] (List.replicate (holders.count who)) := by
  rw [gained_behind, ← h, told_replicate]
  cases o.drawn? with
  | none => exact List.flatten_replicate_nil
  | some p => exact List.flatten_replicate_singleton

theorem due_append (who held : Nat) (ops ops' : List Op) : due who held (ops ++ ops') =
    due who held ops ++ due who (held + (subscribersIn ops).count who) ops' := by
  induction ops generalizing held with
  | nil => rfl
  | cons o ops ih =>
      rw [List.cons_append, due, due, ih, subscribersIn_cons, List.count_append, List.append_assoc,
        Nat.add_assoc]

/-- As long as a subscriber does not subscribe, every picture is due to it equally often. -/
theorem due_of_notMem (h : who ∉ subscribersIn ops) :
    due who held ops = (drawnIn ops).flatMap (List.replicate held) := by
  induction ops with
  | nil => rfl
  | cons o ops ih =>
      rw [subscribersIn_cons, List.mem_append, not_or] at h
      rw [due, List.count_eq_zero_of_not_mem h.1, Nat.add_zero, ih h.2, drawnIn_cons,
        List.flatMap_append]
      cases o.drawn? with
      | none => rfl
      | some p => exact congrArg (· ++ _) (List.flatMap_singleton ..).symm

/-- To whoever subscribes once, every picture is due that is drawn since. -/
theorem due_since {before since : List Op} (hbefore : who ∉ subscribersIn before)
    (hsince : who ∉ subscribersIn since) :
    due who 0 (before ++ .subscribe who :: since) = drawnIn since := by
  have hnothing : (drawnIn before).flatMap (List.replicate 0) = [] :=
    List.flatMap_eq_nil_iff.mpr fun _ _ => rfl
  have honce : due who ([who].count who) since = drawnIn since := by
    rw [List.count_singleton_self, due_of_notMem hsince]
    exact List.flatMap_singleton' _
  rw [due_append, due_of_notMem hbefore, hnothing, List.count_eq_zero_of_not_mem hbefore]
  exact (congrArg (due who · since) (Nat.zero_add _)).trans honce

/-- Whoever has a subscription gets the picture that is drawn last as the last one. -/
theorem getLast?_due (h : 0 < held) (ops : List Op) :
    (due who held ops).getLast? = (drawnIn ops).getLast? := by
  induction ops generalizing held with
  | nil => rfl
  | cons o ops ih =>
      rw [due, drawnIn_cons, List.getLast?_append, List.getLast?_append,
        ih (Nat.add_pos_left h _)]
      cases o.drawn? with
      | none => rfl
      | some p =>
          show _ = (drawnIn ops).getLast?.or (some p)
          rw [Option.elim_some, List.getLast?_replicate, if_neg (Nat.ne_of_gt h)]

/-- Whoever gets anything had a subscription when the last picture was drawn. -/
theorem getLast?_due_of_ne_nil (h : due who held ops ≠ []) :
    (due who held ops).getLast? = (drawnIn ops).getLast? := by
  induction ops generalizing held with
  | nil => exact absurd rfl h
  | cons o ops ih =>
      rcases Nat.eq_zero_or_pos held with rfl | hpos
      · have hfirst : o.drawn?.elim [] (List.replicate 0) = [] := by
          cases o.drawn? <;> rfl
        rw [due, hfirst, List.nil_append] at h ⊢
        have hrest := ih h
        rw [hrest, drawnIn_cons, List.getLast?_append]
        cases hlast : (drawnIn ops).getLast? with
        | some p => rfl
        | none => exact absurd (List.getLast?_eq_none_iff.mp (hrest.trans hlast)) h
      · exact getLast?_due hpos _

end FrameBuffer

end ChipEight
