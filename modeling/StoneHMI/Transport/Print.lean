/-
  StoneHMI.Transport.Print
  ────────────────────────
  **PRINTING INTO `STONE_TX_BUF`.**

  A command function fills `STONE_TX_BUF` with one `sprintf`, with several of
  them that move `TX_CNT` on, or with `strcpy` and a counter of its own, and
  ends in `tx_create`, which hands `STONE_TX_BUF[0..TX_CNT)` to
  `uart_write_bytes`.  A text that does not fit the buffer with its NUL is
  written past its end, which is a fault.

  `Prints f w` is what a caller needs to know of such a function: it hands
  over `w` and nothing else, exactly when `w` fits.
-/
import StoneHMI.Lib.CMemory

namespace StoneHMI

open CText CMemory

/-! ## §1. The buffer. -/

/-- `TX_LEN` of stone.h. -/
def TX_LEN : ℕ := 5000

/-- `STONE_TX_BUF`, and the count of the bytes printed so far: `TX_CNT`, or the `num` of
the functions that copy with `strcpy`. -/
structure TxBuf where
  STONE_TX_BUF : List UInt8
  TX_CNT : ℕ
  full : STONE_TX_BUF.length = TX_LEN

/-- Before any command. -/
def TxBuf.zero : TxBuf :=
  { STONE_TX_BUF := List.replicate TX_LEN 0, TX_CNT := 0, full := List.length_replicate }

/-- What a command function leaves, and what it hands to `uart_write_bytes`. -/
abbrev Sent := Except Fault (TxBuf × List (List UInt8))

namespace TxBuf

/-- `bs` over the bytes of the buffer from the count on. -/
def store (bs : List UInt8) (t : TxBuf) : Except Fault TxBuf :=
  if h : t.TX_CNT + bs.length ≤ TX_LEN then
    .ok
      { t with
        STONE_TX_BUF := t.STONE_TX_BUF.take t.TX_CNT ++ bs
          ++ t.STONE_TX_BUF.drop (t.TX_CNT + bs.length)
        full := by
          have hfull := t.full
          rw [List.length_append, List.length_append, List.length_take, List.length_drop]
          omega }
  else .error .writePast

/-- `sprintf(STONE_TX_BUF+TX_CNT, …)`, which leaves the count alone. -/
def poke (text : List UInt8) (t : TxBuf) : Except Fault TxBuf := t.store (text ++ [0])

/-- `TX_CNT += sprintf(STONE_TX_BUF+TX_CNT, …)`, or `strcpy` and `while(*str++)num++`. -/
def print (text : List UInt8) (t : TxBuf) : Except Fault TxBuf := do
  let t ← t.poke text
  pure { t with TX_CNT := t.TX_CNT + text.length }

/-- `STONE_TX_BUF[TX_CNT++] = b` -/
def push (b : UInt8) (t : TxBuf) : Except Fault TxBuf := do
  let t ← t.store [b]
  pure { t with TX_CNT := t.TX_CNT + 1 }

/-- `TX_CNT = sprintf(STONE_TX_BUF, …)`, or the first `strcpy`. -/
def start (text : List UInt8) (t : TxBuf) : Except Fault TxBuf := print text { t with TX_CNT := 0 }

/-- One `print` after the other. -/
def printAll (texts : List (List UInt8)) (t : TxBuf) : Except Fault TxBuf :=
  texts.foldlM (fun t text => t.print text) t

/-- `tx_create()` -/
def tx_create (t : TxBuf) : Sent := .ok (t, [t.STONE_TX_BUF.take t.TX_CNT])

/-- `TX_CNT = sprintf(STONE_TX_BUF, …); tx_create();` -/
def send (text : List UInt8) (t : TxBuf) : Sent := do
  let t ← t.start text
  t.tx_create

/-- `printf("input error!\r\n")`: nothing is sent. -/
def inputError (t : TxBuf) : Sent := .ok (t, [])

/-! ## §2. What has been printed. -/

/-- The bytes printed so far. -/
def Shows (t : TxBuf) (w : List UInt8) : Prop :=
  t.TX_CNT = w.length ∧ t.STONE_TX_BUF.take t.TX_CNT = w

theorem store_ok_iff (bs : List UInt8) (t : TxBuf) :
    (∃ u, t.store bs = .ok u) ↔ t.TX_CNT + bs.length ≤ TX_LEN := by
  unfold store
  split
  · rename_i h
    exact ⟨fun _ => h, fun _ => ⟨_, rfl⟩⟩
  · rename_i h
    exact ⟨fun ⟨_, hu⟩ => (nomatch hu), fun hle => absurd hle h⟩

/-- What is stored stands behind what was printed. -/
theorem take_store {bs w : List UInt8} {t u : TxBuf} (ht : t.Shows w) (h : t.store bs = .ok u) :
    u.TX_CNT = w.length ∧ ∀ n ≤ bs.length, u.STONE_TX_BUF.take (w.length + n) = w ++ bs.take n := by
  obtain ⟨hcnt, htake⟩ := ht
  unfold store at h
  split at h
  · cases h
    refine ⟨hcnt, fun n hn => ?_⟩
    show (t.STONE_TX_BUF.take t.TX_CNT ++ bs ++ _).take _ = _
    rw [htake, List.append_assoc, List.take_length_add_append, List.take_append_of_le_length hn]
  · cases h

/-- What is printed without a count is not handed over. -/
theorem shows_poke {w text : List UInt8} {t u : TxBuf} (ht : t.Shows w)
    (h : t.poke text = .ok u) : u.Shows w := by
  obtain ⟨hcnt, htake⟩ := take_store ht h
  refine ⟨hcnt, ?_⟩
  have hnone := htake 0 (Nat.zero_le _)
  rwa [Nat.add_zero, List.take_zero, List.append_nil, ← hcnt] at hnone

/-- A print adds its text to what was printed, and needs room for the NUL too. -/
theorem shows_print {w text : List UInt8} {t u : TxBuf} (ht : t.Shows w)
    (h : t.print text = .ok u) : u.Shows (w ++ text) ∧ (w ++ text).length < TX_LEN := by
  obtain ⟨v, hv, h⟩ := ok_of_bind h
  cases h
  obtain ⟨hcnt, htake⟩ := take_store ht hv
  have hroom := (store_ok_iff _ _).mp ⟨v, hv⟩
  rw [List.length_append, List.length_singleton, ht.1] at hroom
  have htext := htake text.length (by rw [List.length_append]; omega)
  rw [List.take_left] at htext
  rw [List.length_append]
  refine ⟨⟨?_, ?_⟩, by omega⟩
  · show v.TX_CNT + text.length = _
    rw [hcnt, List.length_append]
  · show v.STONE_TX_BUF.take (v.TX_CNT + text.length) = _
    rw [hcnt, htext]

theorem print_of_lt {w : List UInt8} (text : List UInt8) {t : TxBuf} (ht : t.Shows w)
    (h : (w ++ text).length < TX_LEN) : ∃ u, t.print text = .ok u := by
  obtain ⟨v, hv⟩ := (store_ok_iff (text ++ [0]) t).mpr (by
    rw [ht.1, List.length_append, List.length_singleton]
    rw [List.length_append] at h
    omega)
  unfold print poke
  rw [hv]
  exact ⟨_, rfl⟩

theorem shows_push {w : List UInt8} {b : UInt8} {t u : TxBuf} (ht : t.Shows w)
    (h : t.push b = .ok u) : u.Shows (w ++ [b]) := by
  obtain ⟨v, hv, h⟩ := ok_of_bind h
  cases h
  obtain ⟨hcnt, htake⟩ := take_store ht hv
  refine ⟨?_, ?_⟩
  · show v.TX_CNT + 1 = _
    rw [hcnt, List.length_append, List.length_singleton]
  · show v.STONE_TX_BUF.take (v.TX_CNT + 1) = _
    rw [hcnt, htake 1 (Nat.le_refl 1)]
    rfl

theorem push_of_lt {w : List UInt8} (b : UInt8) {t : TxBuf} (ht : t.Shows w)
    (h : w.length < TX_LEN) : ∃ u, t.push b = .ok u := by
  obtain ⟨v, hv⟩ := (store_ok_iff [b] t).mpr (by rw [ht.1, List.length_singleton]; omega)
  unfold push
  rw [hv]
  exact ⟨_, rfl⟩

theorem shows_zero (t : TxBuf) : ({ t with TX_CNT := 0 } : TxBuf).Shows [] := ⟨rfl, rfl⟩

/-- Prints in a row add their texts. -/
theorem shows_printAll : ∀ (texts : List (List UInt8)) {w : List UInt8} {t u : TxBuf},
    t.Shows w → t.printAll texts = .ok u →
      u.Shows (w ++ texts.flatten) ∧ (texts ≠ [] → (w ++ texts.flatten).length < TX_LEN)
  | [], w, t, u, ht, h => by
      cases h
      rw [List.flatten_nil, List.append_nil]
      exact ⟨ht, fun hne => absurd rfl hne⟩
  | x :: xs, w, t, u, ht, h => by
      obtain ⟨v, hx, h⟩ := ok_of_bind h
      obtain ⟨hv, hlt⟩ := shows_print ht hx
      obtain ⟨hu, hlast⟩ := shows_printAll xs hv h
      rw [List.flatten_cons, ← List.append_assoc]
      refine ⟨hu, fun _ => ?_⟩
      cases xs with
      | nil => rwa [List.flatten_nil, List.append_nil]
      | cons y ys => exact hlast (by simp)

theorem printAll_of_lt : ∀ (texts : List (List UInt8)) {w : List UInt8} {t : TxBuf},
    t.Shows w → (w ++ texts.flatten).length < TX_LEN → ∃ u, t.printAll texts = .ok u
  | [], w, t, _, _ => ⟨t, rfl⟩
  | x :: xs, w, t, ht, h => by
      rw [List.flatten_cons, ← List.append_assoc] at h
      obtain ⟨v, hv⟩ := print_of_lt x ht (by
        rw [List.length_append] at h
        omega)
      obtain ⟨u, hu⟩ := printAll_of_lt xs (shows_print ht hv).1 h
      refine ⟨u, ?_⟩
      unfold printAll
      rw [List.foldlM_cons, hv]
      exact hu

end TxBuf

/-! ## §3. What a command function hands over. -/

/-- From every buffer, `f` hands over `w`, exactly when `w` and its NUL fit the buffer. -/
def Prints (f : TxBuf → Sent) (w : List UInt8) : Prop :=
  ∀ t, (∀ r, f t = .ok r → r.2 = [w] ∧ w.length < TX_LEN) ∧
    (w.length < TX_LEN → ∃ r, f t = .ok r)

theorem Prints.sent {f : TxBuf → Sent} {w : List UInt8} (hf : Prints f w) {t u : TxBuf}
    {ws : List (List UInt8)} (h : f t = .ok (u, ws)) : ws = [w] := ((hf t).1 _ h).1

theorem Prints.exists_sent {f : TxBuf → Sent} {w : List UInt8} (hf : Prints f w)
    (hfit : w.length < TX_LEN) (t : TxBuf) : ∃ u, f t = .ok (u, [w]) := by
  obtain ⟨⟨u, ws⟩, h⟩ := (hf t).2 hfit
  rw [hf.sent h] at h
  exact ⟨u, h⟩

open TxBuf

theorem tx_create_shows {t : TxBuf} {w : List UInt8} (h : t.Shows w) :
    t.tx_create = .ok (t, [w]) := by
  unfold tx_create
  rw [h.2]

/-- One `sprintf`. -/
theorem prints_send (w : List UInt8) : Prints (send w) w := by
  intro t
  constructor
  · intro r h
    obtain ⟨u, hw, h⟩ := ok_of_bind h
    obtain ⟨hu, hlt⟩ := shows_print (shows_zero t) hw
    rw [tx_create_shows hu] at h
    cases h
    exact ⟨rfl, hlt⟩
  · intro hlt
    obtain ⟨u, hu⟩ := print_of_lt w (shows_zero t) hlt
    refine ⟨(u, [u.STONE_TX_BUF.take u.TX_CNT]), ?_⟩
    unfold send start
    rw [hu]
    rfl

/-- A first text, a quote, and further texts. -/
def sendPieces (first : List UInt8) (texts : List (List UInt8)) (t : TxBuf) : Sent := do
  let t ← t.start first
  let t ← t.push 0x22
  let t ← t.printAll texts
  t.tx_create

theorem prints_sendPieces (first : List UInt8) {texts : List (List UInt8)} (hne : texts ≠ []) :
    Prints (sendPieces first texts) (first ++ 0x22 :: texts.flatten) := by
  have hsplit : first ++ 0x22 :: texts.flatten = (first ++ [0x22]) ++ texts.flatten :=
    List.append_cons first 0x22 _
  intro t
  rw [hsplit]
  constructor
  · intro r h
    obtain ⟨t₁, hf, h⟩ := ok_of_bind h
    obtain ⟨t₂, hp, h⟩ := ok_of_bind h
    obtain ⟨t₃, ha, h⟩ := ok_of_bind h
    obtain ⟨h₃, hlt⟩ := shows_printAll texts (shows_push (shows_print (shows_zero t) hf).1 hp) ha
    rw [tx_create_shows h₃] at h
    cases h
    exact ⟨rfl, hlt hne⟩
  · intro hlt
    have hle : first.length < TX_LEN := by
      simp only [List.length_append, List.length_singleton] at hlt
      omega
    obtain ⟨t₁, h₁⟩ := print_of_lt first (shows_zero t) hle
    have hs₁ := (shows_print (shows_zero t) h₁).1
    obtain ⟨t₂, h₂⟩ := push_of_lt 0x22 hs₁ hle
    obtain ⟨t₃, h₃⟩ := printAll_of_lt texts (shows_push hs₁ h₂) hlt
    refine ⟨(t₃, [t₃.STONE_TX_BUF.take t₃.TX_CNT]), ?_⟩
    unfold sendPieces start
    rw [h₁, ok_bind, h₂, ok_bind, h₃]
    rfl

/-- A first text, and further texts. -/
def sendTexts (first : List UInt8) (texts : List (List UInt8)) (t : TxBuf) : Sent := do
  let t ← t.start first
  let t ← t.printAll texts
  t.tx_create

theorem prints_sendTexts (first : List UInt8) {texts : List (List UInt8)} (hne : texts ≠ []) :
    Prints (sendTexts first texts) (first ++ texts.flatten) := by
  intro t
  constructor
  · intro r h
    obtain ⟨t₁, hf, h⟩ := ok_of_bind h
    obtain ⟨t₂, ha, h⟩ := ok_of_bind h
    obtain ⟨h₂, hlt⟩ := shows_printAll texts (shows_print (shows_zero t) hf).1 ha
    rw [tx_create_shows h₂] at h
    cases h
    exact ⟨rfl, hlt hne⟩
  · intro hlt
    obtain ⟨t₁, h₁⟩ := print_of_lt first (shows_zero t) (by
      rw [List.length_append] at hlt
      show first.length < TX_LEN
      omega)
    obtain ⟨t₂, h₂⟩ := printAll_of_lt texts (shows_print (shows_zero t) h₁).1 hlt
    refine ⟨(t₂, [t₂.STONE_TX_BUF.take t₂.TX_CNT]), ?_⟩
    unfold sendTexts start
    rw [h₁, ok_bind, h₂]
    rfl

end StoneHMI
