import ChipEight.Proofs.Picture.Audience
import ChipEight.Proofs.Picture.Image

/-!
# A renderer is never out of date

A renderer makes the image of its picture when somebody asks for it, and keeps the image until the
next draw. `Renderer.Serves` is the invariant: a kept image is that of the picture that is shown. A
draw drops the image, everything else leaves the picture alone, and what could not be made is not
kept. So the answers are those of a renderer that makes every image anew, and whatever failed
before, the next picture is shown like the first.

## Main results

* `Renderer.Serves.performAll` — the invariant, behind any operations.
* `Renderer.Serves.presents` — the answers.
* `Renderer.cache_coherent` — images, texts and subscribers, whatever was asked before.
-/

namespace ChipEight

namespace Renderer

/-! ## Operations -/

/-- A renderer as it is made. -/
def made (zoom : Int) (on off : Paint) : Renderer := { zoom, onColour := on, offColour := off }

section

variable (lib : Imaging)

def answer (r : Renderer) (o : Op) : Answer := (r.respond lib o).1

/-- The renderer behind an operation. -/
def perform (r : Renderer) (o : Op) : Renderer := (r.respond lib o).2

/-- The renderer behind a sequence of operations. -/
def performAll (r : Renderer) (ops : List Op) : Renderer := ops.foldl (perform lib) r

end

variable {lib : Imaging} {r : Renderer} {zoom : Int} {on off : Paint}

/-! ## Images -/

/-- A renderer with a given zoom and given colours. If it keeps an image, this is the image of the
picture that is shown. -/
structure Serves (lib : Imaging) (r : Renderer) (zoom : Int) (on off : Paint) : Prop where
  zoom_eq : r.zoom = zoom
  onColour_eq : r.onColour = on
  offColour_eq : r.offColour = off
  cached : ∀ i, r.cache = some i → r.buffer.frame.image lib zoom on off = .ok i

theorem serves_made (lib : Imaging) (zoom : Int) (on off : Paint) :
    Serves lib (made zoom on off) zoom on off :=
  ⟨rfl, rfl, rfl, nofun⟩

/-- The image that is shown is that of the picture, whether it was kept or is made now. If it cannot
be made, none was kept. -/
theorem Serves.image_eq (h : Serves lib r zoom on off) :
    r.image lib = (r.buffer.frame.image lib zoom on off,
      { r with cache := (r.buffer.frame.image lib zoom on off).toOption }) := by
  obtain ⟨rfl, rfl, rfl, hcached⟩ := h
  unfold Renderer.image
  cases hkept : r.cache with
  | some i =>
      rw [hcached i hkept]
      show (Except.ok i, r) = (Except.ok i, { r with cache := some i })
      rw [← hkept]
  | none =>
      cases r.buffer.frame.image lib r.zoom r.onColour r.offColour with
      | ok i => rfl
      | error e =>
          show (Except.error e, r) = (Except.error e, { r with cache := none })
          rw [← hkept]

/-- A renderer that was asked for its image serves as before. -/
theorem Serves.behind_image (h : Serves lib r zoom on off) :
    Serves lib (r.image lib).2 zoom on off := by
  rw [h.image_eq]
  refine ⟨h.zoom_eq, h.onColour_eq, h.offColour_eq, ?_⟩
  intro i hkept
  show r.buffer.frame.image lib zoom on off = .ok i
  cases hmade : r.buffer.frame.image lib zoom on off with
  | ok j =>
      rw [hmade] at hkept
      exact congrArg Except.ok (Option.some.inj hkept)
  | error e =>
      rw [hmade] at hkept
      cases hkept

/-- To save the image is to ask for it and to write it. -/
theorem save_eq (lib : Imaging) (files : Files) (path : Path) (r : Renderer) :
    r.save lib files path =
      ((r.image lib).1.mapError .picture >>= Image.written lib files path, (r.image lib).2) := by
  unfold save
  rcases r.image lib with ⟨_ | _, _⟩ <;> rfl

theorem Serves.perform (h : Serves lib r zoom on off) (o : Op) :
    Serves lib (r.perform lib o) zoom on off := by
  cases o with
  | draw p => exact ⟨h.zoom_eq, h.onColour_eq, h.offColour_eq, nofun⟩
  | subscribe who => exact ⟨h.zoom_eq, h.onColour_eq, h.offColour_eq, h.cached⟩
  | image => exact h.behind_image
  | save files path =>
      show Serves lib (r.save lib files path).2 zoom on off
      rw [save_eq]
      exact h.behind_image
  | text on' off' => exact h

theorem Serves.performAll (h : Serves lib r zoom on off) (ops : List Op) :
    Serves lib (r.performAll lib ops) zoom on off := by
  induction ops generalizing r with
  | nil => exact h
  | cons o ops ih => exact ih (h.perform o)

/-- The answers of a renderer are those for the picture `p`. -/
structure Presents (lib : Imaging) (r : Renderer) (zoom : Int) (on off : Paint) (p : Picture) :
    Prop where
  image : r.answer lib .image = .image (p.image lib zoom on off)
  save : ∀ files path, r.answer lib (.save files path) =
    .saved ((p.image lib zoom on off).mapError .picture >>= Image.written lib files path)
  /-- Where a PNG file can be written, the image is written or was not made. -/
  png : ∀ files path, path.extension = ".png" → files.writable path = .ok () →
    r.answer lib (.save files path) =
      .saved (((p.image lib zoom on off).map (path, ·)).mapError .picture)
  text : ∀ lit dark, r.answer lib (.text lit dark) = .text (p.text lit dark)

/-- An image is written at the path of a PNG file if the file can be written. -/
theorem written_png {files : Files} {path : Path} (hpng : path.extension = ".png")
    (hwritable : files.writable path = .ok ()) (i : Image) :
    i.written lib files path = .ok (path, i) := by
  obtain ⟨hformat, himage⟩ := lib.png path hpng
  unfold Image.written
  simp only [hformat, hwritable, himage]

theorem Serves.presents (h : Serves lib r zoom on off) :
    Presents lib r zoom on off r.buffer.frame := by
  have himage : r.answer lib .image = .image (r.buffer.frame.image lib zoom on off) := by
    show Answer.image (r.image lib).1 = _
    rw [h.image_eq]
  have hsave : ∀ files path, r.answer lib (.save files path) = .saved
      ((r.buffer.frame.image lib zoom on off).mapError .picture >>=
        Image.written lib files path) := by
    intro files path
    show Answer.saved (r.save lib files path).1 = _
    rw [save_eq, h.image_eq]
  refine ⟨himage, hsave, ?_, fun _ _ => rfl⟩
  intro files path hpng hwritable
  rw [hsave]
  cases r.buffer.frame.image lib zoom on off with
  | error e => rfl
  | ok i => exact congrArg Answer.saved (written_png hpng hwritable i)

/-! ## Subscribers -/

theorem buffer_image (lib : Imaging) (r : Renderer) : (r.image lib).2.buffer = r.buffer := by
  unfold image
  cases r.cache with
  | some i => rfl
  | none => cases r.buffer.frame.image lib r.zoom r.onColour r.offColour <;> rfl

/-- Of all operations, only draws and subscriptions concern the frame buffer. -/
theorem buffer_perform (lib : Imaging) (r : Renderer) (o : Op) :
    (r.perform lib o).buffer = r.buffer.behind o := by
  cases o with
  | draw p => rfl
  | subscribe who => rfl
  | image => exact r.buffer_image lib
  | save files path =>
      show (r.save lib files path).2.buffer = r.buffer
      rw [save_eq]
      exact r.buffer_image lib
  | text on off => rfl

theorem buffer_performAll (lib : Imaging) (r : Renderer) (ops : List Op) :
    (r.performAll lib ops).buffer = r.buffer.after ops := by
  induction ops generalizing r with
  | nil => rfl
  | cons o ops ih =>
      refine (ih (r.perform lib o)).trans ?_
      rw [buffer_perform]
      rfl

/-- What reaches the subscriber `who` during a sequence of operations, in the order in which its
subscriptions are served, if the subscriptions are those of `holders` at first. -/
def inbox (lib : Imaging) (r : Renderer) (holders : List Nat) (who : Nat) : List Op → List Picture
  | [] => []
  | o :: ops => FrameBuffer.told holders who (r.buffer.gained (r.perform lib o).buffer) ++
      (r.perform lib o).inbox lib (holders ++ o.subscriber?.toList) who ops

/-- What is due to a subscriber reaches it. -/
theorem inbox_eq {holders : List Nat} (h : holders.length = r.buffer.subscribers.length)
    (who : Nat) (ops : List Op) :
    r.inbox lib holders who ops = FrameBuffer.due who (holders.count who) ops := by
  induction ops generalizing r holders with
  | nil => rfl
  | cons o ops ih =>
      have hbehind : (holders ++ o.subscriber?.toList).length =
          (r.perform lib o).buffer.subscribers.length := by
        rw [buffer_perform, FrameBuffer.length_subscribers_behind, List.length_append, h]
      rw [inbox, FrameBuffer.due, ih hbehind, buffer_perform, FrameBuffer.told_gained h,
        List.count_append]

/-- A subscriber of a renderer that is new gets what it should by the operations `ops`. -/
structure Reaches (lib : Imaging) (r : Renderer) (who : Nat) (ops : List Op) : Prop where
  /-- It gets every picture once for each of its subscriptions. -/
  inbox : r.inbox lib [] who ops = FrameBuffer.due who 0 ops
  /-- If it subscribes once, these are the pictures that are drawn since. -/
  since : ∀ before since, ops = before ++ .subscribe who :: since →
    who ∉ subscribersIn before → who ∉ subscribersIn since → r.inbox lib [] who ops = drawnIn since
  /-- If it gets any, the last of them is shown. -/
  latest : r.inbox lib [] who ops ≠ [] →
    (r.inbox lib [] who ops).getLast? = some (r.performAll lib ops).buffer.frame

theorem reaches (lib : Imaging) (hnew : r.buffer = {}) (who : Nat) (ops : List Op) :
    Reaches lib r who ops := by
  have hnobody : ([] : List Nat).length = r.buffer.subscribers.length := by
    rw [hnew]
    rfl
  have hinbox : r.inbox lib [] who ops = FrameBuffer.due who 0 ops := inbox_eq hnobody who ops
  refine ⟨hinbox, ?_, ?_⟩
  · rintro before since rfl hbefore hsince
    rw [hinbox, FrameBuffer.due_since hbefore hsince]
  · intro hsome
    rw [hinbox] at hsome ⊢
    have hlast := FrameBuffer.getLast?_due_of_ne_nil hsome
    rw [hlast, buffer_performAll, FrameBuffer.frame_after, List.getLastD_eq_getLast?]
    cases hdrawn : (drawnIn ops).getLast? with
    | some p => rfl
    | none => exact absurd (List.getLast?_eq_none_iff.mp (hlast.trans hdrawn)) hsome

/-! ## Everything together -/

/-- Let anything be asked of a renderer, in any order. Then it shows the picture that was drawn
last, and before the first draw that of a blank display. Images, saved images and texts are those of
this picture as if they were made now, or the errors in making them. Whatever failed before, the
picture that is drawn next is shown; if it has the size of the display, the colours are made of
bytes and the library makes the image, this is the picture enlarged. The draws are counted, and
every subscriber got what was drawn since. -/
theorem cache_coherent (lib : Imaging) (hzoom : 1 ≤ zoom) (on off : Paint) (ops : List Op) :
    let r := (made zoom on off).performAll lib ops
    r.buffer.frame = (drawnIn ops).getLastD Picture.blank ∧
    Presents lib r zoom on off r.buffer.frame ∧
    (∀ p, Presents lib (r.perform lib (.draw p)) zoom on off p) ∧
    (∀ (p : Picture) (lit dark : Colour), p.Whole → on = lit.paint → off = dark.paint →
      zoom = 1 ∨ lib.refusal? zoom.toNat = none →
      ∃ i, (r.perform lib (.draw p)).answer lib .image = .image (.ok i) ∧
        Picture.Enlarges i zoom.toNat lit dark p) ∧
    r.buffer.Informs ops ∧ ∀ who, Reaches lib (made zoom on off) who ops := by
  intro r
  have hserves : Serves lib r zoom on off := (serves_made lib zoom on off).performAll ops
  have hbuffer : r.buffer = ({} : FrameBuffer).after ops := buffer_performAll lib _ ops
  have hnext : ∀ p, Presents lib (r.perform lib (.draw p)) zoom on off p := fun p =>
    (hserves.perform (.draw p)).presents
  refine ⟨?_, hserves.presents, hnext, ?_, ?_, fun who => reaches lib rfl who ops⟩
  · rw [hbuffer, FrameBuffer.frame_after]
  · rintro p lit dark hwhole rfl rfl hmakes
    obtain ⟨i, hi, henlarges⟩ := hwhole.shown.image lib zoom lit dark hzoom hmakes
    refine ⟨i, ?_, henlarges⟩
    rw [(hnext p).image, hi]
  · rw [hbuffer]
    exact FrameBuffer.informs_after ops

/-- The image is asked for before and behind a draw. Then a subscriber subscribes once more, and a
picture of two rows is drawn, of which there is no image. -/
def showing : List Op :=
  [ .image, .subscribe 0, .draw Picture.diagonal, .image, .subscribe 1, .subscribe 0
  , .draw [0, 0], .image ]

/-- The picture of two rows has reached the first subscriber twice. The next picture is shown. -/
theorem showing_coherent : (1 : Int) ≤ 2 ∧
    let lib := Png.imaging
    let r := (made 2 white black).performAll lib showing
    r.answer lib .image = .image (.error (.wrongHeight 2)) ∧
    (∃ i, (r.perform lib (.draw Picture.diagonal)).answer lib .image = .image (.ok i) ∧
      Picture.Enlarges i 2 ⟨255, 255, 255⟩ ⟨0, 0, 0⟩ Picture.diagonal) ∧
    r.buffer.drawCount = 2 ∧
    r.buffer.subscribers = [[Picture.diagonal, [0, 0]], [[0, 0]], [[0, 0]]] ∧
    (made 2 white black).inbox lib [] 0 showing = [Picture.diagonal, [0, 0], [0, 0]] ∧
    (made 2 white black).inbox lib [] 1 showing = [[0, 0]] := by
  have hzoom : (1 : Int) ≤ 2 := by
    decide
  have hwhole : Picture.Whole Picture.diagonal := by
    constructor
    · unfold Picture.Fits
      decide
    · decide
  obtain ⟨-, hpresents, -, hvalid, hinforms, hreaches⟩ :=
    cache_coherent Png.imaging hzoom white black showing
  refine ⟨hzoom, hpresents.image.trans rfl, ?_, hinforms.drawCount, rfl, (hreaches 0).inbox,
    (hreaches 1).inbox⟩
  exact hvalid Picture.diagonal ⟨255, 255, 255⟩ ⟨0, 0, 0⟩ hwhole rfl rfl (.inr rfl)

end Renderer

end ChipEight
