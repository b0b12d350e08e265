/-
  StoneHMI.Receive.Clearing
  ─────────────────────────
  **DOES A `memset` STAY INSIDE ITS BLOCK?**

  Before they free a block, the `init` functions clear it with the one global
  `widget_last_len`, whichever of the three blocks that length belongs to.
  The sizes of the blocks and that length are functions of the frames alone:
  `Tracks` is the simulation between the frames received so far (most recent
  first) and the decoder's globals, and `clearsFit_iff` is the exact condition
  on a sequence of frames under which every clearing stays inside its block:

    • a widget frame, and a system frame after another one, clears the widget
      block with the length the frame before it left behind;
    • a text frame also clears the text block, always with 40.
-/
import StoneHMI.Receive.Frame

namespace StoneHMI

open CMemory Receiver

/-! ## §1. Sizes as functions of the frames. -/

namespace Payload

/-- The size of the widget block the frame allocates. -/
def widgetSize : Payload → Option ℕ
  | sys _ => none
  | byte w _ => some (w.length + 2)
  | pair w _ _ => some (w.length + 3)
  | quad w _ _ _ _ => some (w.length + 2)
  | chart w _ _ _ _ _ _ => some (w.length + 2)
  | text _ _ => some 41
  | window w => some (w.length + 1)

/-- The size of the text block the frame allocates. -/
def textSize : Payload → Option ℕ
  | text _ t => some (t.length + 1)
  | _ => none

/-- The `widget_last_len` the frame leaves. -/
def lastLen : Payload → ℕ
  | sys p => p.length + 1
  | byte w _ => w.length + 1
  | pair w _ _ => w.length + 2
  | quad w _ _ _ _ => w.length + 1
  | chart w _ _ _ _ _ _ => w.length + 1
  | text _ t => t.length
  | window w => w.length

def isSys : Payload → Bool
  | sys _ => true
  | _ => false

end Payload

/-- The frames received so far, the most recent one first. -/
abbrev History := List Frame

namespace History

/-- The size of the widget block: the last frame that names a widget made it. -/
def widgetSize (h : History) : Option ℕ := h.findSome? fun f => f.payload.widgetSize

/-- The size of the text block: the last text frame made it. -/
def textSize (h : History) : Option ℕ := h.findSome? fun f => f.payload.textSize

/-- `widget_last_len`: the last frame set it. -/
def lastLen : History → ℕ
  | [] => 0
  | f :: _ => f.payload.lastLen

/-- A system frame has come, so `STONER.data` is allocated. -/
def sysSeen (h : History) : Bool := h.any fun f => f.payload.isSys

/-- Does `f` clear the widget block? -/
def ClearsWidget (h : History) (f : Frame) : Prop := f.payload.isSys = true → h.sysSeen = true

instance (h : History) (f : Frame) : Decidable (h.ClearsWidget f) :=
  inferInstanceAs (Decidable (_ → _))

/-- A second system frame before any widget clears through a null pointer. -/
def Crashes (h : History) (f : Frame) : Prop :=
  f.payload.isSys = true ∧ h.sysSeen = true ∧ h.widgetSize = none

instance (h : History) (f : Frame) : Decidable (h.Crashes f) :=
  inferInstanceAs (Decidable (_ ∧ _ ∧ _))

/-- What `f` clears after `h`. -/
def clears (h : History) (f : Frame) : List Clear :=
  (if h.ClearsWidget f then (h.widgetSize.map fun n => (⟨n, h.lastLen⟩ : Clear)).toList else [])
    ++ (f.payload.textSize.bind fun _ => h.textSize.map fun n => (⟨n, 40⟩ : Clear)).toList

/-- **The condition on one frame.**  If it clears the widget block, the frame
before it left a length within that block; if it is a text frame, the text
block has room for 40 bytes. -/
def FrameFits (h : History) (f : Frame) : Prop :=
  (h.ClearsWidget f → ∀ n ∈ h.widgetSize, h.lastLen ≤ n) ∧
    (f.payload.textSize ≠ none → ∀ n ∈ h.textSize, 40 ≤ n)

instance (h : History) (f : Frame) : Decidable (h.FrameFits f) :=
  inferInstanceAs (Decidable (_ ∧ _))

/-- The condition on the frames to come, up to the first that crashes. -/
def Fits : History → List Frame → Prop
  | _, [] => True
  | h, f :: fs => FrameFits h f ∧ (¬ Crashes h f → Fits (f :: h) fs)

instance decidableFits : ∀ (h : History) (fs : List Frame), Decidable (h.Fits fs)
  | _, [] => .isTrue trivial
  | h, f :: fs =>
      have := decidableFits (f :: h) fs
      inferInstanceAs (Decidable (FrameFits h f ∧ (¬ Crashes h f → Fits (f :: h) fs)))

end History

/-- A clearing that stays inside its block. -/
def Clear.Within (c : Clear) : Prop := c.count ≤ c.size

theorem clears_within_iff (h : History) (f : Frame) :
    (∀ c ∈ h.clears f, c.Within) ↔ h.FrameFits f := by
  unfold History.clears History.FrameFits Clear.Within
  rw [List.forall_mem_append]
  apply and_congr
  · by_cases hc : h.ClearsWidget f
    · rw [if_pos hc]
      cases h.widgetSize <;> simp [hc]
    · rw [if_neg hc]
      simp [hc]
  · cases f.payload.textSize with
    | none => simp
    | some n => cases h.textSize <;> simp

/-! ## §2. The simulation. -/

/-- The globals hold blocks of the sizes that the frames say. -/
structure Tracks (h : History) (s : Receiver) : Prop where
  widget : s.STONER.widget.map Block.size = h.widgetSize
  text : s.STONER.text.map Block.size = h.textSize
  data : s.STONER.data.isSome = h.sysSeen
  last : s.widget_last_len = h.lastLen

theorem tracks_init : Tracks [] Receiver.init := ⟨rfl, rfl, rfl, rfl⟩

theorem Tracks.setCmdLen {h : History} {s : Receiver} (ht : Tracks h s) (c l : ℕ) :
    Tracks h (s.setCmdLen c l) := ⟨ht.widget, ht.text, ht.data, ht.last⟩

/-- The sizes in a payload's plan. -/
theorem Payload.plan_sizes {p : Payload} {d : Decoder} {q : Plan} (hname : p.NameOk)
    (hq : p.plan d = some q) :
    some q.widget.size = p.widgetSize ∧ q.text.map (fun t => t.1.size) = p.textSize ∧
      q.lastLen = p.lastLen ∧ p.isSys = false ∧ (q.text ≠ none → q.widgetLen = 40) := by
  have hnul : ∀ {n : ℕ} {w : List UInt8}, w.length ≤ n + 1 →
      some (Block.filled n w).size = some (n + 1) := by
    intro n w hw
    rw [Block.size_filled hw]
  cases p with
  | sys b => cases hq
  | byte w v =>
      cases hq
      exact ⟨hnul (by omega), rfl, rfl, rfl, fun h => absurd rfl h⟩
  | pair w hi lo =>
      cases hq
      exact ⟨hnul (by omega), rfl, rfl, rfl, fun h => absurd rfl h⟩
  | quad w b0 b1 b2 b3 =>
      have hw := hnul (n := w.length + 1) (w := w) (by omega)
      cases d <;> cases hq <;> exact ⟨hw, rfl, rfl, rfl, fun h => absurd rfl h⟩
  | chart w hi lo b0 b1 b2 b3 =>
      cases hq
      exact ⟨hnul (by omega), rfl, rfl, rfl, fun h => absurd rfl h⟩
  | text w t =>
      cases hq
      have hw : (w ++ [0]).length ≤ 40 + 1 := by
        rw [List.length_append, List.length_singleton]
        have := hname.1
        omega
      have ht : (t ++ [0]).length ≤ t.length + 1 := by
        rw [List.length_append, List.length_singleton]
      exact ⟨hnul hw, hnul ht, rfl, rfl, fun _ => rfl⟩
  | window w =>
      cases hq
      have hw : (w ++ [0]).length ≤ w.length + 1 := by
        rw [List.length_append, List.length_singleton]
      exact ⟨hnul hw, rfl, rfl, rfl, fun h => absurd rfl h⟩

theorem isSys_of_plan_none {f : Frame} (hq : f.plan = none) : f.payload.isSys = true := by
  obtain ⟨p, hp⟩ := Payload.sys_of_plan_none hq
  rw [hp]
  rfl

/-- **Step, widget frame.** -/
theorem Tracks.widgetFrame {h : History} {s : Receiver} {f : Frame} {q : Plan}
    (ht : Tracks h s) (hq : f.plan = some q) :
    Tracks (f :: h) (q.apply s) ∧ (q.apply s).clears = s.clears ++ h.clears f ∧
      ¬ h.Crashes f := by
  obtain ⟨hw, htext, hlast, hsys, hforty⟩ := Payload.plan_sizes f.nameOk hq
  refine ⟨⟨?_, ?_, ?_, ?_⟩, ?_, ?_⟩
  · rw [STONER_apply]
    unfold History.widgetSize
    rw [List.findSome?_cons, ← hw]
    rfl
  · rw [STONER_apply]
    unfold History.textSize
    rw [List.findSome?_cons, ← htext]
    show ((q.text.map Prod.fst).or s.STONER.text).map Block.size = _
    cases q.text with
    | none => exact ht.text
    | some b => rfl
  · rw [STONER_apply]
    unfold History.sysSeen
    rw [List.any_cons, hsys, Bool.false_or]
    exact ht.data
  · rw [widget_last_len_apply, hlast]
    rfl
  · -- first the widget block with the old length, then the text block with 40
    have hclears : h.ClearsWidget f := fun hs => by
      rw [hsys] at hs
      cases hs
    have hwmap : s.STONER.widget.map (fun b => (⟨b.size, s.widget_last_len⟩ : Clear))
        = h.widgetSize.map fun n => ⟨n, h.lastLen⟩ := by
      rw [← ht.widget, ← ht.last, Option.map_map]
      rfl
    have htmap : s.STONER.text.map (fun b => (⟨b.size, 40⟩ : Clear))
        = h.textSize.map fun n => ⟨n, 40⟩ := by
      rw [← ht.text, Option.map_map]
      rfl
    rw [clears_apply, List.append_assoc]
    unfold History.clears
    rw [if_pos hclears, hwmap, ← htext]
    cases hqt : q.text with
    | none => rfl
    | some b =>
        rw [hforty (by rw [hqt]; simp)]
        show _ ++ (_ ++ (s.STONER.text.map fun b => (⟨b.size, 40⟩ : Clear)).toList) = _
        rw [htmap]
        rfl
  · rintro ⟨hs, -⟩
    rw [hsys] at hs
    cases hs

/-- System frames alone leave a positive length. -/
theorem History.lastLen_pos {h : History} (hsys : h.sysSeen = true) (hw : h.widgetSize = none) :
    0 < h.lastLen := by
  cases h with
  | nil => cases hsys
  | cons f h =>
      have hf : f.payload.widgetSize = none := by
        unfold History.widgetSize at hw
        rw [List.findSome?_cons] at hw
        cases hfw : f.payload.widgetSize with
        | none => rfl
        | some n =>
            rw [hfw] at hw
            cases hw
      show 0 < f.payload.lastLen
      cases hp : f.payload with
      | sys p => exact Nat.succ_pos _
      | byte => rw [hp] at hf; cases hf
      | pair => rw [hp] at hf; cases hf
      | quad => rw [hp] at hf; cases hf
      | chart => rw [hp] at hf; cases hf
      | text => rw [hp] at hf; cases hf
      | window => rw [hp] at hf; cases hf

/-- The clearing that `datainit` does. -/
theorem Tracks.dataClear {h : History} {s : Receiver} {f : Frame} (ht : Tracks h s)
    (hsys : f.payload.isSys = true) (htext : f.payload.textSize = none) :
    match StoneHMI.dataClear s with
    | .ok t => Tracks h t ∧ t.clears = s.clears ++ h.clears f ∧ ¬ h.Crashes f
    | .error _ => h.Crashes f := by
  unfold History.clears
  rw [htext]
  cases hd : s.STONER.data with
  | none =>
      -- the first system frame clears nothing
      have hseen : h.sysSeen = false := by
        rw [← ht.data, hd]
        rfl
      have hno : ¬ h.ClearsWidget f := fun hc => by
        rw [hc hsys] at hseen
        cases hseen
      rw [show StoneHMI.dataClear s = .ok s by unfold StoneHMI.dataClear; rw [hd]; rfl,
        if_neg hno]
      refine ⟨ht, (List.append_nil _).symm, fun hc => ?_⟩
      rw [hc.2.1] at hseen
      cases hseen
  | some b =>
      have hseen : h.sysSeen = true := by
        rw [← ht.data, hd]
        rfl
      -- a later one clears the widget block, if there is one
      have hyes : h.ClearsWidget f := fun _ => hseen
      rw [if_pos hyes]
      cases hw : s.STONER.widget with
      | some w =>
          have hsize : h.widgetSize = some w.size := by
            rw [← ht.widget, hw]
            rfl
          rw [show StoneHMI.dataClear s = .ok ((s.logClear (some w) s.widget_last_len).setWidget
            (w.clear s.widget_last_len)) by unfold StoneHMI.dataClear; rw [hd, hw]; rfl]
          refine ⟨⟨?_, ht.text, ht.data, ht.last⟩, ?_, fun hc => ?_⟩
          · rw [hsize]
            rfl
          · rw [hsize, ← ht.last]
            rfl
          · rw [hc.2.2] at hsize
            cases hsize
      | none =>
          have hnone : h.widgetSize = none := by
            rw [← ht.widget, hw]
            rfl
          have hpos : s.widget_last_len ≠ 0 := by
            have := History.lastLen_pos hseen hnone
            rw [ht.last]
            omega
          rw [show StoneHMI.dataClear s = .error .nullPointer by
            unfold StoneHMI.dataClear
            rw [hd, hw]
            exact if_neg hpos]
          exact ⟨hsys, hseen, hnone⟩

/-- **Step, system frame.** -/
theorem Tracks.sysFrame {h : History} {s : Receiver} {f : Frame} {d : Block} {n : ℕ}
    (ht : Tracks h s) (hq : f.plan = none) (hn : n = f.payload.lastLen) :
    Tracks (f :: h) (s.newData d n) := by
  have hsys := isSys_of_plan_none hq
  obtain ⟨p, hp⟩ := Payload.sys_of_plan_none hq
  have hw : f.payload.widgetSize = none := by rw [hp]; rfl
  have htx : f.payload.textSize = none := by rw [hp]; rfl
  refine ⟨?_, ?_, ?_, hn⟩
  · unfold History.widgetSize
    rw [List.findSome?_cons, hw]
    exact ht.widget
  · unfold History.textSize
    rw [List.findSome?_cons, htx]
    exact ht.text
  · unfold History.sysSeen
    rw [List.any_cons, hsys, Bool.true_or]
    rfl

/-- **Step.**  A frame either crashes, exactly when the frames before it say
so, or does the clearing that they say and leaves what they say. -/
theorem Tracks.step {h : History} {s : Receiver} (ht : Tracks h s) (f : Frame)
    (older : List UInt8) :
    match receive_parse (f.bytes ++ older) s with
    | .ok (t, _) => Tracks (f :: h) t ∧ t.clears = s.clears ++ h.clears f ∧ ¬ h.Crashes f
    | .error _ => h.Crashes f := by
  have ht' := ht.setCmdLen f.cmd.code f.payload.data.length
  cases hq : f.plan with
  | some q =>
      -- a widget frame never crashes
      rw [Frame.receive_parse_widget hq]
      exact ht'.widgetFrame hq
  | none =>
      obtain ⟨p, hp⟩ := Payload.sys_of_plan_none hq
      have htx : f.payload.textSize = none := by rw [hp]; rfl
      have hlast : f.payload.data.length + 1 = f.payload.lastLen := by rw [hp]; rfl
      obtain ⟨d, hd⟩ := Frame.receive_parse_sys hq older s
      have hclear := ht'.dataClear (isSys_of_plan_none hq) htx
      rw [hd]
      cases hc : StoneHMI.dataClear (s.setCmdLen f.cmd.code f.payload.data.length) with
      | error e =>
          rw [hc] at hclear
          exact hclear
      | ok t =>
          rw [hc] at hclear
          obtain ⟨htt, hcl, hno⟩ := hclear
          exact ⟨htt.sysFrame hq hlast, hcl, hno⟩

/-! ## §3. Sequences of frames. -/

/-- `receive_parse` over a sequence of frames, each with the bytes that older
frames left behind it, up to the first fault. -/
def parseFrames : Receiver → List (Frame × List UInt8) → Receiver
  | s, [] => s
  | s, (f, older) :: fs =>
      match receive_parse (f.bytes ++ older) s with
      | .ok (t, _) => parseFrames t fs
      | .error _ => s

/-- Fewer frames fit as well. -/
theorem History.Fits.of_append {gs : List Frame} :
    ∀ {fs : List Frame} {h : History}, h.Fits (fs ++ gs) → h.Fits fs
  | [], _, _ => trivial
  | _ :: _, _, hfit => ⟨hfit.1, fun hno => (hfit.2 hno).of_append⟩

/-- Behind frames of widgets, which never crash, one more frame is one more condition. -/
theorem History.fits_concat {f : Frame} :
    ∀ {fs : List Frame} {h : History}, (∀ g ∈ fs, g.payload.isSys = false) →
      (h.Fits (fs ++ [f]) ↔ h.Fits fs ∧ History.FrameFits (fs.reverse ++ h) f)
  | [], h, _ => ⟨fun hfit => ⟨trivial, hfit.1⟩, fun hfit => ⟨hfit.2, fun _ => trivial⟩⟩
  | g :: fs, h, hsys => by
      obtain ⟨hg, hfs⟩ := List.forall_mem_cons.mp hsys
      have hno : ¬ h.Crashes g := fun hc => by
        rw [hc.1] at hg
        cases hg
      have hrest := fits_concat (f := f) (h := g :: h) hfs
      rw [List.reverse_cons, List.append_assoc, List.singleton_append]
      show h.FrameFits g ∧ (¬ h.Crashes g → _) ↔ (h.FrameFits g ∧ (¬ h.Crashes g → _)) ∧ _
      rw [forall_prop_of_true hno, forall_prop_of_true hno, and_assoc]
      exact and_congr_right fun _ => hrest

/-- Every clearing so far stayed inside its block. -/
def Receiver.ClearsFit (s : Receiver) : Prop := ∀ c ∈ s.clears, c.Within

instance (s : Receiver) : Decidable s.ClearsFit :=
  inferInstanceAs (Decidable (∀ c ∈ s.clears, c.count ≤ c.size))

/-- A frame that crashes clears nothing. -/
theorem History.Crashes.frameFits {h : History} {f : Frame} (hc : h.Crashes f) :
    h.FrameFits f := by
  obtain ⟨hsys, -, hw⟩ := hc
  refine ⟨fun _ n hn => ?_, fun htext => ?_⟩
  · rw [hw] at hn
    cases hn
  · cases hp : f.payload with
    | text => rw [hp] at hsys; cases hsys
    | sys | byte | pair | quad | chart | window => exact absurd (by rw [hp]; rfl) htext

theorem clearsFit_iff_of_tracks :
    ∀ (fs : List (Frame × List UInt8)) (h : History) (s : Receiver), Tracks h s →
      ((parseFrames s fs).ClearsFit ↔ s.ClearsFit ∧ History.Fits h (fs.map Prod.fst))
  | [], h, s, _ => (and_iff_left trivial).symm
  | (f, older) :: fs, h, s, ht => by
      have hstep := ht.step f older
      rw [List.map_cons]
      show _ ↔ s.ClearsFit ∧ (h.FrameFits f ∧ (¬ h.Crashes f → History.Fits (f :: h) _))
      cases hr : receive_parse (f.bytes ++ older) s with
      | error e =>
          rw [hr] at hstep
          have hcrash : h.Crashes f := hstep
          have hend : parseFrames s ((f, older) :: fs) = s := by
            rw [parseFrames, hr]
          rw [hend]
          exact ⟨fun hs => ⟨hs, hcrash.frameFits, fun hn => absurd hcrash hn⟩, fun h => h.1⟩
      | ok r =>
          obtain ⟨t, posted⟩ := r
          rw [hr] at hstep
          obtain ⟨htt, hcl, hno⟩ := hstep
          have hnext : parseFrames s ((f, older) :: fs) = parseFrames t fs := by
            rw [parseFrames, hr]
          have hfit : t.ClearsFit ↔ s.ClearsFit ∧ h.FrameFits f := by
            unfold Receiver.ClearsFit
            rw [hcl, List.forall_mem_append, clears_within_iff]
          rw [hnext, clearsFit_iff_of_tracks fs (f :: h) t htt, hfit, and_assoc,
            forall_prop_of_true hno]

/-- **Every clearing stays inside its block, exactly when each frame fits the
frames before it.**  For every sequence of well-formed frames, over whatever
older frames left in the receive buffer. -/
theorem clearsFit_iff (frames : List (Frame × List UInt8)) :
    (parseFrames Receiver.init frames).ClearsFit ↔
      History.Fits [] (frames.map Prod.fst) := by
  rw [clearsFit_iff_of_tracks frames [] Receiver.init tracks_init]
  exact and_iff_right fun c hc => by cases hc

open CText in
/-- Two countdown labels `1:59` in a row: 40 bytes are cleared in a block of 5. -/
theorem not_clearsFit_countdown :
    ¬ (parseFrames Receiver.init
        [(countdownFrame (str "1:59") (by decide), []),
          (countdownFrame (str "1:59") (by decide), [])]).ClearsFit := by
  decide +kernel

end StoneHMI
