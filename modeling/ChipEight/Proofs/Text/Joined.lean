/-!
# Joined parts

Parts that are joined by a separator keep their characters, and parts of one length can be told
from what they are joined to, whatever the separator is.

## Main results

* `Text.forall_mem_intercalate` — what holds of all characters of the parts and the separator.
* `Text.intercalate_inj_of_length` — parts of one length are told from the whole.
-/

namespace ChipEight.Text

variable {α : Type} {sep : List α}

theorem forall_mem_intercalate {P : α → Prop} (hsep : ∀ c ∈ sep, P c) {parts : List (List α)}
    (h : ∀ part ∈ parts, ∀ c ∈ part, P c) : ∀ c ∈ sep.intercalate parts, P c := by
  induction parts with
  | nil => exact nofun
  | cons part rest ih =>
      have hpart := h part List.mem_cons_self
      have hrest := ih fun p hp => h p (List.mem_cons_of_mem part hp)
      cases rest with
      | nil => simpa using hpart
      | cons next rest =>
          intro c hc
          rw [List.intercalate_cons_cons, List.mem_append, List.mem_append] at hc
          rcases hc with (hpart' | hsep') | hrest'
          · exact hpart c hpart'
          · exact hsep c hsep'
          · exact hrest c hrest'

/-- Parts of one length are told from what they are joined to. -/
theorem intercalate_inj_of_length {n : Nat} {ps qs : List (List α)}
    (hcount : ps.length = qs.length) (hp : ∀ part ∈ ps, part.length = n)
    (hq : ∀ part ∈ qs, part.length = n) (h : sep.intercalate ps = sep.intercalate qs) :
    ps = qs := by
  induction ps generalizing qs with
  | nil => exact (List.eq_nil_of_length_eq_zero hcount.symm).symm
  | cons p ps ih =>
      cases qs with
      | nil => cases hcount
      | cons q qs =>
          have hlength : p.length = q.length :=
            (hp p List.mem_cons_self).trans (hq q List.mem_cons_self).symm
          have hrest := ih (Nat.succ.inj hcount) (fun part hpart => hp part (.tail p hpart))
            (fun part hpart => hq part (.tail q hpart))
          cases ps with
          | nil =>
              rw [List.eq_nil_of_length_eq_zero (Nat.succ.inj hcount).symm] at h ⊢
              simpa using h
          | cons p' ps =>
              cases qs with
              | nil => cases hcount
              | cons q' qs =>
                  rw [List.intercalate_cons_cons, List.intercalate_cons_cons, List.append_assoc,
                    List.append_assoc] at h
                  obtain ⟨hhead, htail⟩ := List.append_inj h hlength
                  rw [hhead, hrest (List.append_cancel_left htail)]

end ChipEight.Text
