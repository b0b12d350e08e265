/-
  StoneHMI.Transport.Packets
  ──────────────────────────
  **PACKETS BUILT PAIR BY PAIR — `STONE_JSON` of stone_transport.c.**

  `STONE_JSON` adds one name and value to a packet per call and sends it with
  the call that carries `JSON_END`.  Whether a call starts a packet is kept in
  the static `json_create`: 0 makes the call print the head, and every call
  adds 1 to it, also the one that has just set it back to 0.

    §1  `STONE_JSON` and its calls        §3  one packet
    §2  what one call does                §4  packets in a row

  `packets_iff` is the exact condition on a sequence of packets: the first one
  is sent as it should be if it has at most 256 pairs, and no second one ever is.
-/
import StoneHMI.Transport.Commands
import StoneHMI.Transport.Print

namespace StoneHMI

open CText CMemory TxBuf

/-! ## §1. `STONE_JSON` and its calls. -/

/-- `STR_HEAD_CMD` -/
def STR_HEAD_CMD : List UInt8 := str "ST<\x7b"

/-- `JSON_END` -/
def JSON_END : ℤ := 1

/-- `STR_TYPE_NUM`, a test of the variable `name`. -/
def STR_TYPE_NUM (name : List UInt8) : Bool :=
  name == str "sleep" || name == str "enable" || name == str "visible" || name == str "value"
    || name == str "max" || name == str "min" || name == str "step" || name == str "interval"
    || name == str "loop" || name == str "start_index" || name == str "end_index"
    || name == str "draw_type" || name == str "scale_x" || name == str "scale_y"
    || name == str "rotation" || name == str "image_value" || name == str "selected_index"
    || name == str "angle" || name.head? == some 0x78 || name.head? == some 0x79

/-- `TX_CNT` and `STONE_TX_BUF`, and the static `json_create` (a `char`, which wraps). -/
structure JsonTx where
  tx : TxBuf
  json_create : UInt8

/-- What a call of `STONE_JSON` leaves, and what it hands to `uart_write_bytes`. -/
abbrev JsonSent := Except Fault (JsonTx × List (List UInt8))

/-- A call of `STONE_JSON`; `fin` is the `int` that `va_arg` finds behind `value`. -/
structure JsonCall where
  name : List UInt8
  value : List UInt8
  fin : ℤ
  deriving DecidableEq, Repr

/-- `if (TX_CNT>=TX_LEN)`: `TX_CNT` is set to 0 before the message is sent. -/
def JsonTx.outOfRange (s : JsonTx) : JsonSent := do
  let t ← TxBuf.store (List.replicate 200 0) { s.tx with TX_CNT := 0 }
  let t ← t.poke (str "Input out of range!")
  let (t, sent) ← t.tx_create
  let t ← t.store (List.replicate 200 0)
  pure ({ tx := t, json_create := 0 }, sent)

/-- The value as it is printed: quoted, unless the name is one of a number. -/
def valueText (name value : List UInt8) : List UInt8 :=
  if STR_TYPE_NUM name then value else quoted value

/-- The head of a first pair, and the check of the count. -/
def JsonTx.prepare (s : JsonTx) : JsonSent := do
  let t ← (if s.json_create = 0 then s.tx.start STR_HEAD_CMD else pure s.tx)
  let s := { s with tx := t }
  if TX_LEN ≤ s.tx.TX_CNT then s.outOfRange else pure (s, [])

/-- The pair itself. -/
def printPair (name value : List UInt8) (t : TxBuf) : Except Fault TxBuf := do
  let t ← t.print (quoted name)
  let t ← t.push 0x3a
  t.print (valueText name value)

/-- `STONE_JSON(name, value, fin)` -/
def STONE_JSON (c : JsonCall) (s : JsonTx) : JsonSent := do
  let (s, sent) ← s.prepare
  let t ← printPair c.name c.value s.tx
  if c.fin = JSON_END then do
    let t ← t.print STR_END
    let (t, frames) ← t.tx_create
    -- set to 0, and then counted up
    pure ({ tx := t, json_create := 0 + 1 }, sent ++ frames)
  else do
    let t ← t.push 0x2c
    pure ({ tx := t, json_create := s.json_create + 1 }, sent)

/-- One call after the other, and everything they hand over. -/
def runCalls : List JsonCall → JsonTx → JsonSent
  | [], s => pure (s, [])
  | c :: cs, s => do
      let (s, sent) ← STONE_JSON c s
      let (s, later) ← runCalls cs s
      pure (s, sent ++ later)

/-- A packet: the calls before the last one, none of which carries `JSON_END`, and the
last one's name and value. -/
structure Packet where
  front : List JsonCall
  name : List UInt8
  value : List UInt8
  unfinished : ∀ c ∈ front, c.fin ≠ JSON_END

namespace Packet

/-- The call that carries `JSON_END`. -/
def last (p : Packet) : JsonCall := { name := p.name, value := p.value, fin := JSON_END }

def calls (p : Packet) : List JsonCall := p.front ++ [p.last]

end Packet

/-- `"name":value` -/
def JsonCall.text (c : JsonCall) : List UInt8 :=
  quoted c.name ++ 0x3a :: valueText c.name c.value

/-- The head, the pairs with commas between them, and the end. -/
def Packet.text (p : Packet) : List UInt8 :=
  STR_HEAD_CMD ++ List.intercalate [0x2c] (p.calls.map JsonCall.text) ++ STR_END

/-- Every packet of a sequence, from the first call to the last. -/
def sendPackets (packets : List Packet) (s : JsonTx) : JsonSent :=
  runCalls (packets.flatMap Packet.calls) s

/-! ## §2. What one call does. -/

/-- The bytes in front of the pair that the next call prints. -/
def JsonTx.Continues (s : JsonTx) (w : List UInt8) : Prop :=
  if s.json_create = 0 then w = STR_HEAD_CMD else s.tx.Shows w

/-- The count from which the next call prints. -/
def JsonTx.printsAt (s : JsonTx) : ℕ :=
  if s.json_create = 0 then STR_HEAD_CMD.length else s.tx.TX_CNT

theorem length_STR_HEAD_CMD : STR_HEAD_CMD.length = 4 := rfl

/-- Within the buffer, a call goes on from what is shown. -/
theorem prepare_of_lt {s : JsonTx} {w : List UInt8} (hs : s.Continues w) (hw : w.length < TX_LEN) :
    ∃ t : TxBuf, s.prepare = .ok ({ s with tx := t }, []) ∧ t.Shows w := by
  unfold JsonTx.Continues at hs
  unfold JsonTx.prepare
  by_cases h0 : s.json_create = 0
  · rw [if_pos h0] at hs
    subst hs
    obtain ⟨t, ht⟩ := print_of_lt STR_HEAD_CMD (shows_zero s.tx) hw
    have hshows := (shows_print (shows_zero s.tx) ht).1
    refine ⟨t, ?_, hshows⟩
    have hcnt : t.TX_CNT = STR_HEAD_CMD.length := hshows.1
    rw [if_pos h0]
    unfold TxBuf.start
    rw [ht, ok_bind]
    exact if_neg (by rw [hcnt]; omega)
  · rw [if_neg h0] at hs
    refine ⟨s.tx, ?_, hs⟩
    rw [if_neg h0, pure_bind]
    exact if_neg (by rw [hs.1]; omega)

/-- Otherwise it sends an empty message, or prints from `printsAt`. -/
theorem prepare_cases {s s' : JsonTx} {ws : List (List UInt8)} (h : s.prepare = .ok (s', ws)) :
    ws = [[]] ∨
      (ws = [] ∧ s'.json_create = s.json_create ∧ ∃ w, s'.tx.Shows w ∧ w.length = s.printsAt) := by
  obtain ⟨t, ht, h⟩ := ok_of_bind h
  change (if TX_LEN ≤ t.TX_CNT then JsonTx.outOfRange ⟨t, s.json_create⟩
    else pure (⟨t, s.json_create⟩, [])) = _ at h
  split at h
  · -- the count is 0 by the time that `tx_create` sends
    obtain ⟨t₁, h₁, h⟩ := ok_of_bind h
    obtain ⟨t₂, h₂, h⟩ := ok_of_bind h
    obtain ⟨⟨t₃, sent⟩, h₃, h⟩ := ok_of_bind h
    obtain ⟨t₄, h₄, h⟩ := ok_of_bind h
    cases h
    left
    have hcnt : t₂.Shows [] := by
      have hzero := (take_store (shows_zero t) h₁).1
      refine shows_poke (w := []) ⟨hzero, ?_⟩ h₂
      rw [hzero]
      rfl
    rw [tx_create_shows hcnt] at h₃
    cases h₃
    rfl
  · rename_i hlt
    cases h
    right
    refine ⟨rfl, rfl, ?_⟩
    unfold JsonTx.printsAt
    by_cases h0 : s.json_create = 0
    · rw [if_pos h0] at ht
      rw [if_pos h0]
      exact ⟨STR_HEAD_CMD, (shows_print (shows_zero s.tx) ht).1, rfl⟩
    · rw [if_neg h0] at ht
      cases ht
      rw [if_neg h0]
      have hfull := s.tx.full
      have hcnt : ¬ TX_LEN ≤ s.tx.TX_CNT := hlt
      have hlen : (s.tx.STONE_TX_BUF.take s.tx.TX_CNT).length = s.tx.TX_CNT := by
        rw [List.length_take]
        omega
      exact ⟨_, ⟨hlen.symm, rfl⟩, hlen⟩

theorem shows_printPair {name value w : List UInt8} {t u : TxBuf} (ht : t.Shows w)
    (h : printPair name value t = .ok u) :
    u.Shows (w ++ (quoted name ++ 0x3a :: valueText name value)) := by
  obtain ⟨t₁, h₁, h⟩ := ok_of_bind h
  obtain ⟨t₂, h₂, h⟩ := ok_of_bind h
  have hu := (shows_print (shows_push (shows_print ht h₁).1 h₂) h).1
  simpa only [List.append_assoc, List.singleton_append] using hu

theorem printPair_of_lt {name value w : List UInt8} {t : TxBuf} (ht : t.Shows w)
    (hlt : (w ++ (quoted name ++ 0x3a :: valueText name value)).length < TX_LEN) :
    ∃ u, printPair name value t = .ok u := by
  simp only [List.length_append, List.length_cons] at hlt
  obtain ⟨t₁, h₁⟩ := print_of_lt (quoted name) ht (by rw [List.length_append]; omega)
  have hs₁ := (shows_print ht h₁).1
  obtain ⟨t₂, h₂⟩ := push_of_lt 0x3a hs₁ (by rw [List.length_append]; omega)
  have hs₂ := shows_push hs₁ h₂
  obtain ⟨t₃, h₃⟩ := print_of_lt (valueText name value) hs₂
    (by simp only [List.length_append, List.length_singleton]; omega)
  refine ⟨t₃, ?_⟩
  unfold printPair
  rw [h₁, ok_bind, h₂, ok_bind, h₃]

/-- **A call before the last** adds its pair and a comma, and sends nothing. -/
theorem STONE_JSON_open {c : JsonCall} {s : JsonTx} {w : List UInt8} (hs : s.Continues w)
    (hc : c.fin ≠ JSON_END) (hfit : (w ++ c.text ++ [0x2c]).length < TX_LEN) :
    ∃ t : TxBuf, STONE_JSON c s = .ok (⟨t, s.json_create + 1⟩, []) ∧
      t.Shows (w ++ c.text ++ [0x2c]) := by
  rw [List.length_append, List.length_singleton] at hfit
  obtain ⟨t, hprep, ht⟩ := prepare_of_lt hs (by rw [List.length_append] at hfit; omega)
  have hroom : (w ++ c.text).length < TX_LEN := by omega
  obtain ⟨u, hu⟩ : ∃ u, printPair c.name c.value t = .ok u := printPair_of_lt ht hroom
  have hshows : u.Shows (w ++ c.text) := shows_printPair ht hu
  obtain ⟨v, hv⟩ := push_of_lt 0x2c hshows (by omega)
  refine ⟨v, ?_, shows_push hshows hv⟩
  unfold STONE_JSON
  rw [hprep, ok_bind]
  simp only [hu, ok_bind, if_neg hc, hv]
  rfl

/-- **The last call** adds its pair and the end, and sends the packet. -/
theorem STONE_JSON_last {c : JsonCall} {s : JsonTx} {w : List UInt8} (hs : s.Continues w)
    (hc : c.fin = JSON_END) (hfit : (w ++ c.text ++ STR_END).length < TX_LEN) :
    ∃ t : TxBuf, STONE_JSON c s = .ok (⟨t, 1⟩, [w ++ c.text ++ STR_END]) ∧
      t.Shows (w ++ c.text ++ STR_END) := by
  have hpair : (w ++ c.text).length < TX_LEN := by
    rw [List.length_append] at hfit
    omega
  obtain ⟨t, hprep, ht⟩ := prepare_of_lt hs (by rw [List.length_append] at hpair; omega)
  obtain ⟨u, hu⟩ : ∃ u, printPair c.name c.value t = .ok u := printPair_of_lt ht hpair
  have hshows : u.Shows (w ++ c.text) := shows_printPair ht hu
  obtain ⟨v, hv⟩ := print_of_lt STR_END hshows hfit
  have hend := (shows_print hshows hv).1
  refine ⟨v, ?_, hend⟩
  unfold STONE_JSON
  rw [hprep, ok_bind]
  simp only [hu, ok_bind, if_pos hc, hv, tx_create_shows hend]
  rfl

/-- **Any call**, by the lengths alone: the message for an overflow, a pair and a comma, or
a packet. -/
theorem STONE_JSON_cases {c : JsonCall} {s s' : JsonTx} {ws : List (List UInt8)}
    (h : STONE_JSON c s = .ok (s', ws)) :
    (∃ rest, ws = [] :: rest) ∨
    (c.fin ≠ JSON_END ∧ ws = [] ∧ s'.tx.TX_CNT = s.printsAt + c.text.length + 1 ∧
      s'.json_create = s.json_create + 1) ∨
    (c.fin = JSON_END ∧ ∃ x, ws = [x] ∧ x.length = s.printsAt + c.text.length + STR_END.length) := by
  obtain ⟨⟨s₁, sent⟩, hprep, h⟩ := ok_of_bind h
  obtain ⟨t, ht, h⟩ := ok_of_bind h
  rcases prepare_cases hprep with rfl | ⟨rfl, hcreate, w, hw, hlen⟩
  · left
    split at h
    · obtain ⟨t₁, h₁, h⟩ := ok_of_bind h
      obtain ⟨⟨t₂, frames⟩, h₂, h⟩ := ok_of_bind h
      cases h
      exact ⟨frames, rfl⟩
    · obtain ⟨t₁, h₁, h⟩ := ok_of_bind h
      cases h
      exact ⟨[], rfl⟩
  · right
    have hpair : t.Shows (w ++ c.text) := shows_printPair hw ht
    split at h
    · rename_i hend
      obtain ⟨t₁, h₁, h⟩ := ok_of_bind h
      obtain ⟨⟨t₂, frames⟩, h₂, h⟩ := ok_of_bind h
      cases h
      rw [tx_create_shows (shows_print hpair h₁).1] at h₂
      cases h₂
      refine Or.inr ⟨hend, _, rfl, ?_⟩
      simp only [List.length_append, hlen]
    · rename_i hopen
      obtain ⟨t₁, h₁, h⟩ := ok_of_bind h
      cases h
      have hcnt : t₁.TX_CNT = (w ++ c.text ++ [0x2c]).length := (shows_push hpair h₁).1
      refine Or.inl ⟨hopen, rfl, ?_, congrArg (· + 1) hcreate⟩
      show t₁.TX_CNT = _
      rw [hcnt, List.length_append, List.length_append, hlen]
      rfl

/-! ## §3. One packet. -/

/-- The pairs before the last one, each with its comma. -/
def frontText (cs : List JsonCall) : List UInt8 := cs.flatMap fun c => c.text ++ [0x2c]

theorem frontText_cons (c : JsonCall) (cs : List JsonCall) :
    frontText (c :: cs) = c.text ++ [0x2c] ++ frontText cs := List.flatMap_cons

theorem intercalate_concat (cs : List JsonCall) (last : List UInt8) :
    List.intercalate [0x2c] (cs.map JsonCall.text ++ [last]) = frontText cs ++ last := by
  induction cs with
  | nil => simp [frontText]
  | cons c cs ih =>
      rw [List.map_cons, List.cons_append, frontText_cons, List.append_assoc, ← ih]
      -- something follows the pair, so a comma does
      cases hrest : cs.map JsonCall.text ++ [last] with
      | nil => simp at hrest
      | cons d ds => simp [List.intercalate, List.intersperse]

theorem Packet.text_eq (p : Packet) :
    p.text = STR_HEAD_CMD ++ frontText p.front ++ p.last.text ++ STR_END := by
  unfold Packet.text Packet.calls
  rw [List.map_append, List.map_singleton, intercalate_concat, List.append_assoc STR_HEAD_CMD,
    List.append_assoc STR_HEAD_CMD, List.append_assoc STR_HEAD_CMD]

theorem runCalls_append (cs ds : List JsonCall) (s : JsonTx) :
    runCalls (cs ++ ds) s
      = runCalls cs s >>= fun r => runCalls ds r.1 >>= fun q => pure (q.1, r.2 ++ q.2) := by
  induction cs generalizing s with
  | nil =>
      show runCalls ds s = runCalls ds s >>= fun q => pure (q.1, [] ++ q.2)
      simp only [List.nil_append]
      exact (bind_pure _).symm
  | cons c cs ih =>
      simp only [List.cons_append, runCalls, ih, bind_assoc, pure_bind, List.append_assoc]

/-- While the counter does not wrap, the calls before the last add their pairs. -/
theorem runCalls_front : ∀ (cs : List JsonCall) {s : JsonTx} {w : List UInt8}, s.Continues w →
    (∀ c ∈ cs, c.fin ≠ JSON_END) → s.json_create.toNat + cs.length < 256 →
    (w ++ frontText cs).length < TX_LEN →
    ∃ t, runCalls cs s = .ok (t, []) ∧ t.Continues (w ++ frontText cs)
  | [], s, w, hs, _, _, _ => ⟨s, rfl, by simpa [frontText] using hs⟩
  | c :: cs, s, w, hs, hopen, hcount, hfit => by
      rw [frontText_cons, ← List.append_assoc, ← List.append_assoc] at hfit
      obtain ⟨u, hu, hshows⟩ := STONE_JSON_open hs (hopen c List.mem_cons_self)
        (by rw [List.length_append] at hfit; omega)
      rw [List.length_cons] at hcount
      have hnext : (s.json_create + 1).toNat = s.json_create.toNat + 1 := by
        rw [UInt8.toNat_add, UInt8.toNat_one]
        omega
      have hne : s.json_create + 1 ≠ 0 := by
        intro h0
        rw [h0, UInt8.toNat_zero] at hnext
        omega
      have hcontinues : (⟨u, s.json_create + 1⟩ : JsonTx).Continues (w ++ c.text ++ [0x2c]) := by
        unfold JsonTx.Continues
        rw [if_neg hne]
        exact hshows
      obtain ⟨t, ht, htc⟩ := runCalls_front cs hcontinues
        (fun d hd => hopen d (List.mem_cons_of_mem c hd))
        (by show (s.json_create + 1).toNat + cs.length < 256; omega) hfit
      refine ⟨t, ?_, ?_⟩
      · show STONE_JSON c s >>= _ = _
        rw [hu, ok_bind]
        show runCalls cs _ >>= _ = _
        rw [ht]
        rfl
      · rw [frontText_cons, ← List.append_assoc, ← List.append_assoc]
        exact htc

/-- **A packet from `json_create == 0`** is sent whole, and leaves `json_create` at 1. -/
theorem runCalls_packet {p : Packet} {s : JsonTx} (hs : s.json_create = 0)
    (hcount : p.front.length ≤ 255) (hfit : p.text.length < TX_LEN) :
    ∃ t : TxBuf, runCalls p.calls s = .ok (⟨t, 1⟩, [p.text]) ∧ t.Shows p.text := by
  rw [p.text_eq] at hfit ⊢
  have hstart : s.Continues STR_HEAD_CMD := by
    unfold JsonTx.Continues
    rw [if_pos hs]
  obtain ⟨u, hu, hcont⟩ := runCalls_front p.front hstart p.unfinished
    (by rw [hs, UInt8.toNat_zero]; omega)
    (by rw [List.length_append, List.length_append] at hfit; omega)
  obtain ⟨t, ht, hshows⟩ := STONE_JSON_last (c := p.last) hcont rfl hfit
  refine ⟨t, ?_, hshows⟩
  unfold Packet.calls
  rw [runCalls_append, hu, ok_bind]
  show (STONE_JSON p.last u >>= _) >>= _ = _
  rw [ht]
  rfl

/-! ## §4. Packets in a row. -/

/-- A pair before the last of its packet sends nothing, unless it is the message for an
overflow. -/
theorem runCalls_open {c : JsonCall} (hc : c.fin ≠ JSON_END) {cs : List JsonCall} {s t : JsonTx}
    {ws : List (List UInt8)} (h : runCalls (c :: cs) s = .ok (t, ws)) :
    (∃ rest, ws = [] :: rest) ∨
    ∃ s₁, s₁.tx.TX_CNT = s.printsAt + c.text.length + 1 ∧ s₁.json_create = s.json_create + 1 ∧
      runCalls cs s₁ = .ok (t, ws) := by
  obtain ⟨⟨s₁, sent⟩, h₁, h⟩ := ok_of_bind h
  obtain ⟨⟨s₂, later⟩, h₂, h⟩ := ok_of_bind h
  cases h
  rcases STONE_JSON_cases h₁ with ⟨rest, rfl⟩ | ⟨-, rfl, hcnt, hcreate⟩ | ⟨hend, -⟩
  · exact Or.inl ⟨rest ++ later, rfl⟩
  · exact Or.inr ⟨s₁, hcnt, hcreate, h₂⟩
  · exact absurd hend hc

/-- Printing from the wrong count, a packet of the right length is never sent. -/
theorem head_ne_of_printsAt {last : JsonCall} {more : List JsonCall} {text : List UInt8}
    (hlast : last.fin = JSON_END) :
    ∀ (cs : List JsonCall) {s t : JsonTx} {ws : List (List UInt8)} {e : ℕ}, s.printsAt ≠ e →
      4 ≤ e → (∀ c ∈ cs, c.fin ≠ JSON_END) →
      text.length = e + (frontText cs).length + last.text.length + STR_END.length →
      runCalls (cs ++ last :: more) s = .ok (t, ws) → ws.head? ≠ some text
  | [], s, t, ws, e, hoff, he, _, hlen, h => by
      have hlen0 : text.length = e + last.text.length + STR_END.length := by
        simpa [frontText] using hlen
      obtain ⟨⟨s₁, sent⟩, h₁, h⟩ := ok_of_bind h
      obtain ⟨⟨s₂, later⟩, -, h⟩ := ok_of_bind h
      cases h
      rcases STONE_JSON_cases h₁ with ⟨rest, rfl⟩ | ⟨hopen, -⟩ | ⟨-, x, rfl, hx⟩
      · intro hhead
        rw [← Option.some.inj hhead, List.length_nil] at hlen0
        omega
      · exact absurd hlast hopen
      · intro hhead
        rw [← Option.some.inj hhead] at hlen0
        omega
  | c :: cs, s, t, ws, e, hoff, he, hopen, hlen, h => by
      rw [frontText_cons, List.length_append, List.length_append, List.length_singleton] at hlen
      rcases runCalls_open (hopen c List.mem_cons_self) h with ⟨rest, rfl⟩ | ⟨s₁, hcnt, -, hrun⟩
      · intro hhead
        rw [← Option.some.inj hhead, List.length_nil] at hlen
        omega
      · -- the difference stays, or the counter has wrapped and the head is printed again
        have hoff' : s₁.printsAt ≠ e + c.text.length + 1 := by
          unfold JsonTx.printsAt
          split
          · rw [length_STR_HEAD_CMD]
            omega
          · omega
        exact head_ne_of_printsAt hlast cs hoff' (by omega)
          (fun d hd => hopen d (List.mem_cons_of_mem c hd)) (by omega) hrun

/-- Nor is it, where the counter wraps before the last call. -/
theorem head_ne_of_wrap {last : JsonCall} {more : List JsonCall} {text : List UInt8}
    (hlast : last.fin = JSON_END) :
    ∀ (cs : List JsonCall) {s t : JsonTx} {ws : List (List UInt8)} {e : ℕ},
      256 ≤ s.json_create.toNat + cs.length → 4 ≤ e → (∀ c ∈ cs, c.fin ≠ JSON_END) →
      text.length = e + (frontText cs).length + last.text.length + STR_END.length →
      runCalls (cs ++ last :: more) s = .ok (t, ws) → ws.head? ≠ some text
  | [], s, t, ws, e, hwrap, _, _, _, _ => by
      have hlt := s.json_create.toNat_lt
      rw [List.length_nil] at hwrap
      omega
  | c :: cs, s, t, ws, e, hwrap, he, hopen, hlen, h => by
      rw [frontText_cons, List.length_append, List.length_append, List.length_singleton] at hlen
      rw [List.length_cons] at hwrap
      have hrest : ∀ d ∈ cs, d.fin ≠ JSON_END := fun d hd => hopen d (List.mem_cons_of_mem c hd)
      rcases runCalls_open (hopen c List.mem_cons_self) h with ⟨rest, rfl⟩ | ⟨s₁, -, hcreate, hrun⟩
      · intro hhead
        rw [← Option.some.inj hhead, List.length_nil] at hlen
        omega
      · by_cases h255 : s.json_create.toNat = 255
        · -- this call has wrapped it: the next one prints the head over what is there
          have hzero : s₁.json_create = 0 := by
            apply UInt8.toNat_inj.mp
            rw [hcreate, UInt8.toNat_add, h255]
            rfl
          have hoff : s₁.printsAt ≠ e + c.text.length + 1 := by
            unfold JsonTx.printsAt
            rw [if_pos hzero, length_STR_HEAD_CMD]
            omega
          exact head_ne_of_printsAt hlast cs hoff (by omega) hrest (by omega) hrun
        · have hlt := s.json_create.toNat_lt
          have hnext : s₁.json_create.toNat = s.json_create.toNat + 1 := by
            rw [hcreate, UInt8.toNat_add, UInt8.toNat_one]
            omega
          exact head_ne_of_wrap hlast cs (by omega) (by omega) hrest
            (e := e + c.text.length + 1) (by omega) hrun

theorem Packet.length_text (p : Packet) :
    p.text.length = 4 + (frontText p.front).length + p.last.text.length + STR_END.length := by
  rw [p.text_eq]
  simp only [List.length_append]
  rfl

theorem sendPackets_cons (p : Packet) (ps : List Packet) :
    (p :: ps).flatMap Packet.calls = p.front ++ p.last :: ps.flatMap Packet.calls := by
  rw [List.flatMap_cons]
  unfold Packet.calls
  rw [List.append_assoc, List.singleton_append]

/-- A packet of more than 256 pairs is not sent. -/
theorem sendPackets_long {p : Packet} (hp : 255 < p.front.length) (ps : List Packet) (t : TxBuf)
    (s : JsonTx) : sendPackets (p :: ps) ⟨t, 0⟩ ≠ .ok (s, (p :: ps).map Packet.text) := by
  intro h
  unfold sendPackets at h
  rw [sendPackets_cons] at h
  exact head_ne_of_wrap rfl p.front (s := ⟨t, 0⟩) (by show 256 ≤ 0 + p.front.length; omega)
    (Nat.le_refl 4) p.unfinished p.length_text h rfl

/-- Nor is a second packet: it starts with the counter at 1 and the first one in the buffer. -/
theorem sendPackets_second {p : Packet} (hp : p.front.length ≤ 255) (hfit : p.text.length < TX_LEN)
    (q : Packet) (qs : List Packet) (t : TxBuf) (s : JsonTx) :
    sendPackets (p :: q :: qs) ⟨t, 0⟩ ≠ .ok (s, (p :: q :: qs).map Packet.text) := by
  intro h
  unfold sendPackets at h
  obtain ⟨u, hu, hshows⟩ := runCalls_packet (s := ⟨t, 0⟩) rfl hp hfit
  rw [List.flatMap_cons, runCalls_append, hu, ok_bind] at h
  obtain ⟨⟨v, ws⟩, hv, h⟩ := ok_of_bind h
  have hws : p.text :: ws = p.text :: q.text :: qs.map Packet.text :=
    congrArg Prod.snd (Except.ok.inj h)
  have hoff : (⟨u, 1⟩ : JsonTx).printsAt ≠ 4 := by
    show u.TX_CNT ≠ 4
    rw [hshows.1, p.length_text]
    show _ + 4 ≠ 4
    omega
  rw [sendPackets_cons] at hv
  refine head_ne_of_printsAt rfl q.front hoff (Nat.le_refl 4) q.unfinished q.length_text hv ?_
  rw [(List.cons.inj hws).2]
  rfl

/-- **INDEPENDENT PACKETS, EXACTLY**: from `json_create == 0` and any buffer, the transmissions
are the packets' texts exactly when there is one packet at most, of 256 pairs at most. -/
theorem packets_iff {packets : List Packet} (hfit : ∀ p ∈ packets, p.text.length < TX_LEN)
    (t : TxBuf) :
    (∃ s, sendPackets packets ⟨t, 0⟩ = .ok (s, packets.map Packet.text)) ↔
      packets.length ≤ 1 ∧ ∀ p ∈ packets, p.calls.length ≤ 256 := by
  have hcalls : ∀ p : Packet, p.calls.length = p.front.length + 1 := fun p => by
    unfold Packet.calls
    rw [List.length_append, List.length_singleton]
  constructor
  · rintro ⟨s, h⟩
    cases packets with
    | nil => exact ⟨Nat.zero_le 1, nofun⟩
    | cons p ps =>
        have hp : p.front.length ≤ 255 := by
          by_contra hlong
          exact sendPackets_long (by omega) ps t s h
        cases ps with
        | nil =>
            refine ⟨Nat.le_refl 1, fun q hq => ?_⟩
            rw [List.mem_singleton.mp hq, hcalls]
            omega
        | cons q qs =>
            exact absurd h (sendPackets_second hp (hfit p List.mem_cons_self) q qs t s)
  · rintro ⟨hone, hpairs⟩
    match packets, hone with
    | [], _ => exact ⟨_, rfl⟩
    | [p], _ =>
        have hp := hpairs p List.mem_cons_self
        rw [hcalls] at hp
        obtain ⟨u, hu, -⟩ := runCalls_packet (s := ⟨t, 0⟩) rfl (by omega)
          (hfit p List.mem_cons_self)
        refine ⟨⟨u, 1⟩, ?_⟩
        unfold sendPackets
        rw [List.flatMap_singleton]
        exact hu

/-- The packet of the usage comment. -/
def rebootPacket : Packet where
  front := [{ name := str "cmd_code", value := str "sys_reboot", fin := 0 }]
  name := str "type"
  value := str "system"
  unfinished := List.all_iff_forall_prop.mp (by decide)

theorem rebootPacket_fits : rebootPacket.text.length < TX_LEN := by decide

/-- One packet is what it should be. -/
theorem packets_iff_reboot :
    (∃ s, sendPackets [rebootPacket] ⟨TxBuf.zero, 0⟩
        = .ok (s, [rebootPacket].map Packet.text)) ↔
      [rebootPacket].length ≤ 1 ∧ ∀ p ∈ [rebootPacket], p.calls.length ≤ 256 :=
  packets_iff (fun p hp => by rw [List.mem_singleton.mp hp]; exact rebootPacket_fits) TxBuf.zero

/-- **The second packet is sent behind the first, without its head.** -/
theorem not_independent_reboot :
    ¬ ∀ packets : List Packet, (∀ p ∈ packets, p.text.length < TX_LEN) →
        ∃ s, sendPackets packets ⟨TxBuf.zero, 0⟩ = .ok (s, packets.map Packet.text) := by
  intro h
  obtain ⟨s, hs⟩ := h [rebootPacket, rebootPacket] (fun p hp => by
    rcases List.mem_cons.mp hp with hp | hp
    · rw [hp]
      exact rebootPacket_fits
    · rw [List.mem_singleton.mp hp]
      exact rebootPacket_fits)
  have hsent : (fun r => r.2) <$> sendPackets [rebootPacket, rebootPacket] ⟨TxBuf.zero, 0⟩
      = .ok [rebootPacket.text, rebootPacket.text ++ rebootPacket.text.drop 4] := by
    decide +kernel
  rw [hs] at hsent
  have htexts : [rebootPacket, rebootPacket].map Packet.text
      = [rebootPacket.text, rebootPacket.text ++ rebootPacket.text.drop 4] := Except.ok.inj hsent
  exact absurd htexts (by decide)

end StoneHMI
