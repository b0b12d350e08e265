/-
  StoneHMI.System.Panel
  ─────────────────────
  **THE WHOLE PANEL — from the bytes on the line to the relays.**

  `uart_task` reads chunks of the line and calls `receive_parse` on each
  assembled buffer, which decodes into `STONER` and posts its address;
  `stone_cmd` takes an address and acts on what `STONER` then shows; the timer
  and `timer_handle` run beside them.  `Panel.step` is one step of one of
  these, and a run is any interleaving: a read waits only until the calls of
  the read before it are carried out, for they are the same task's.

    §1  the panel and its steps      §3  the line carries notices
    §2  what a step can do           §4  what a run has decoded
-/
import StoneHMI.Receive.Segmentation
import StoneHMI.Receive.Transparency
import StoneHMI.Receive.Buffer
import StoneHMI.Receive.Clearing
import StoneHMI.Controller.Relay

namespace StoneHMI

open Labelled Delimiter CMemory

/-! ## §1. The panel. -/

/-- The framer, the calls of `receive_parse` carried out so far, `STONER`, the
queue of pointers to it, and the controller. -/
structure Panel where
  uart : Uart
  handled : ℕ
  receiver : Receiver
  Stone_CMD_buf_handle : Fifo Unit 5
  sys : Sys

/-- A step of one of the tasks. -/
inductive Move where
  /-- `uart_read_bytes` returns the bytes `chunk`. -/
  | read (chunk : List UInt8)
  /-- `uart_task` carries out its next call of `receive_parse`. -/
  | parse
  /-- `stone_cmd` takes a pointer and handles what it shows. -/
  | take
  /-- The started timer reaches its alarm. -/
  | alarm
  /-- `timer_handle` handles one element of `Timer_queue`. -/
  | tick
  deriving DecidableEq

namespace Panel

/-- After `app_main`: both buffers hold anything. -/
def start (data buf : List UInt8) : Panel :=
  { uart := Uart.start data buf, handled := 0, receiver := Receiver.init,
    Stone_CMD_buf_handle := Fifo.empty, sys := Sys.init }

def step (P : Platform) (p : Panel) : Move → Option Panel
  | .read chunk =>
      if p.handled = p.uart.rx.parsed.length then some { p with uart := uart_read p.uart chunk }
      else none
  | .parse =>
      match p.uart.rx.parsed[p.handled]? with
      | none => none
      | some call =>
          match receive_parse call.1 p.receiver with
          | .error _ => none  -- the task crashes, and the run ends
          | .ok (s, posted) =>
              some { p with
                handled := p.handled + 1
                receiver := s
                Stone_CMD_buf_handle :=
                  if posted then p.Stone_CMD_buf_handle.send () else p.Stone_CMD_buf_handle }
  | .take =>
      match p.Stone_CMD_buf_handle.receive with
      | none => none
      | some (_, q) =>
          (p.sys.step P (.item p.receiver.contents)).map fun t =>
            { p with Stone_CMD_buf_handle := q, sys := t }
  | .alarm => (p.sys.step P .alarm).map fun t => { p with sys := t }
  | .tick => (p.sys.step P .tick).map fun t => { p with sys := t }

/-! ## §2. What a step can do. -/

theorem step_cases {P : Platform} {p t : Panel} {m : Move} (h : p.step P m = some t) :
    (∃ c, m = .read c ∧ p.handled = p.uart.rx.parsed.length ∧
      t = { p with uart := uart_read p.uart c }) ∨
    (∃ call s posted, m = .parse ∧ p.uart.rx.parsed[p.handled]? = some call ∧
      receive_parse call.1 p.receiver = .ok (s, posted) ∧
      t = { p with
        handled := p.handled + 1
        receiver := s
        Stone_CMD_buf_handle :=
          if posted then p.Stone_CMD_buf_handle.send () else p.Stone_CMD_buf_handle }) ∨
    (∃ q u, m = .take ∧ p.Stone_CMD_buf_handle.receive = some ((), q) ∧
      p.sys.step P (.item p.receiver.contents) = some u ∧
      t = { p with Stone_CMD_buf_handle := q, sys := u }) ∨
    (∃ e u, (m = .alarm ∧ e = .alarm ∨ m = .tick ∧ e = .tick) ∧ p.sys.step P e = some u ∧
      t = { p with sys := u }) := by
  cases m with
  | read c =>
      simp only [step] at h
      split at h
      · rename_i hh
        exact Or.inl ⟨c, rfl, hh, (Option.some.inj h).symm⟩
      · cases h
  | parse =>
      refine Or.inr (Or.inl ?_)
      simp only [step] at h
      cases hcall : p.uart.rx.parsed[p.handled]? with
      | none =>
          simp only [hcall] at h
          cases h
      | some call =>
          cases hr : receive_parse call.1 p.receiver with
          | error f =>
              simp only [hcall, hr] at h
              cases h
          | ok r =>
              simp only [hcall, hr] at h
              exact ⟨call, r.1, r.2, rfl, rfl, hr, (Option.some.inj h).symm⟩
  | take =>
      refine Or.inr (Or.inr (Or.inl ?_))
      simp only [step] at h
      cases hq : p.Stone_CMD_buf_handle.receive with
      | none =>
          simp only [hq] at h
          cases h
      | some r =>
          simp only [hq, Option.map_eq_some_iff] at h
          obtain ⟨u, hu, ht⟩ := h
          exact ⟨r.2, u, rfl, rfl, hu, ht.symm⟩
  | alarm =>
      simp only [step, Option.map_eq_some_iff] at h
      obtain ⟨u, hu, ht⟩ := h
      exact Or.inr (Or.inr (Or.inr ⟨.alarm, u, Or.inl ⟨rfl, rfl⟩, hu, ht.symm⟩))
  | tick =>
      simp only [step, Option.map_eq_some_iff] at h
      obtain ⟨u, hu, ht⟩ := h
      exact Or.inr (Or.inr (Or.inr ⟨.tick, u, Or.inr ⟨rfl, rfl⟩, hu, ht.symm⟩))

/-- Pointers that are still to be taken. -/
def waiting (p : Panel) : ℕ := p.Stone_CMD_buf_handle.items.length

end Panel

/-- What a step reads from the line, if it reads. -/
def Move.chunk? : Move → Option (List UInt8)
  | .read c => some c
  | _ => none

/-- The chunks a run reads. -/
def reads (ls : List Move) : List (List UInt8) := ls.filterMap Move.chunk?

theorem reads_append (ls ks : List Move) : reads (ls ++ ks) = reads ls ++ reads ks :=
  List.filterMap_append

/-- The framer has seen the chunks, and nothing else has touched it. -/
theorem Panel.uart_run {P : Platform} {p₀ : Panel} (ls : List Move) :
    ∀ p, exec (Panel.step P) p₀ ls = some p → p.uart = uart_task p₀.uart (reads ls) := by
  induction ls using List.reverseRecOn with
  | nil =>
      intro p hp
      rw [exec_nil, Option.some.injEq] at hp
      rw [← hp]
      rfl
  | append_singleton ls m ih =>
      intro p hp
      rw [exec_concat, Option.bind_eq_some_iff] at hp
      obtain ⟨u, hu, hup⟩ := hp
      have hlast : ∀ c, uart_task p₀.uart (reads ls ++ [c]) = uart_read u.uart c := by
        intro c
        rw [ih u hu]
        unfold uart_task
        rw [List.foldl_append]
        rfl
      rw [reads_append]
      obtain ⟨c, rfl, -, rfl⟩ | ⟨call, s, posted, rfl, -, -, rfl⟩ | ⟨q, t, rfl, -, -, rfl⟩ |
        ⟨e, t, hm, -, rfl⟩ := Panel.step_cases hup
      · exact (hlast c).symm
      · show u.uart = uart_task p₀.uart (reads ls ++ [])
        rw [List.append_nil, ih u hu]
      · show u.uart = uart_task p₀.uart (reads ls ++ [])
        rw [List.append_nil, ih u hu]
      · have hnil : reads [m] = [] := by
          rcases hm with ⟨rfl, -⟩ | ⟨rfl, -⟩ <;> rfl
        show u.uart = _
        rw [hnil, List.append_nil, ih u hu]

/-! ## §3. The line carries notices. -/

/-- A frame of a widget that spells no `'>ET'` before its terminator. -/
structure Notice where
  frame : Frame
  plan : Plan
  spells : frame.plan = some plan
  plain : ¬ frame_end <:+: UInt8.ofNat frame.payload.data.length :: frame.payload.data

namespace Notice

def bytes (r : Notice) : List UInt8 := r.frame.bytes

def item (r : Notice) : Item := r.plan.item

/-- The terminator is the first `'>ET'`. -/
theorem findMark_bytes (r : Notice) :
    findMark frame_end r.bytes = some (r.frame.payload.data.length + 7) := by
  have hR : RX_LEN = 200 := rfl
  have hshort := r.frame.short
  have hlen : r.bytes.length = r.frame.payload.data.length + 12 := r.frame.length_bytes
  refine (findMark_eq_some_iff frame_end r.bytes _).mpr ⟨by omega, ?_, fun j hj hmark => ?_⟩
  · -- seven bytes and the data stand before it
    have hdrop : r.bytes.drop (r.frame.payload.data.length + 7) = r.frame.trailer := by
      have happ : r.bytes = (r.frame.header ++ r.frame.payload.data) ++ r.frame.trailer := by
        have h := r.frame.bytes_append []
        rw [List.append_nil, List.append_nil, ← List.append_assoc] at h
        exact h
      rw [happ]
      exact List.drop_left' (by rw [List.length_append, r.frame.length_header, Nat.add_comm])
    rw [hdrop]
    exact List.prefix_append frame_end _
  · exact r.plain ((mark_in_frame r.frame.cmd.code _ (by omega)).mp ⟨j, hj, hmark⟩)

theorem length_bytes_le (r : Notice) : r.bytes.length ≤ RX_LEN := by
  have hshort := r.frame.short
  show r.frame.bytes.length ≤ RX_LEN
  rw [r.frame.length_bytes]
  exact hshort

theorem isSys_eq_false (r : Notice) : r.frame.payload.isSys = false :=
  (Payload.plan_sizes r.frame.nameOk r.spells).2.2.2.1

/-- What a notice makes of the decoder's globals: `STONER` shows its item, and the blocks are
those of one frame more, behind the clearing which that frame does. -/
structure Leaves (r : Notice) (s t : Receiver) : Prop where
  contents : t.contents = r.item.onto s.contents
  tracks : ∀ h, Tracks h s → Tracks (r.frame :: h) t ∧ t.clears = s.clears ++ h.clears r.frame

/-- A notice is decoded, and posted, whatever stands behind it in the buffer. -/
theorem receive_parse_notice (r : Notice) (older : List UInt8) (s : Receiver) :
    ∃ t, receive_parse (r.bytes ++ older) s = .ok (t, true) ∧ r.Leaves s t := by
  refine ⟨_, Frame.receive_parse_widget r.spells older s, contents_apply r.plan _, fun h hs => ?_⟩
  obtain ⟨htracks, hclears, -⟩ :=
    (hs.setCmdLen r.frame.cmd.code r.frame.payload.data.length).widgetFrame r.spells
  exact ⟨htracks, hclears⟩

end Notice

/-- The bytes on the line. -/
def stream (rs : List Notice) : List UInt8 := (rs.map Notice.bytes).flatten

/-- The line is cut behind each notice. -/
theorem segments_stream (rs : List Notice) :
    segments frame_end 2 (stream rs) = (rs.map Notice.bytes, []) := by
  refine segments_flatten frame_end_ne_nil _ fun p hp => ?_
  obtain ⟨r, -, rfl⟩ := List.mem_map.mp hp
  refine ⟨_, r.findMark_bytes, ?_⟩
  have hlen : r.bytes.length = r.frame.payload.data.length + 12 := r.frame.length_bytes
  rw [frame_end_length, hlen]

/-- As far as it has been read, it is cut behind the first of them. -/
theorem pieces_of_stream {rs : List Notice} {s : List UInt8} (h : s <+: stream rs) :
    (segments frame_end 2 s).1 <+: rs.map Notice.bytes := by
  obtain ⟨f, hf⟩ := h
  have hseg := segments_append (k := 2) frame_end_ne_nil f s
  rw [hf, segments_stream] at hseg
  exact ⟨_, (congrArg Prod.fst hseg).symm⟩

/-- Reads that are whole before what follows are whole before less. -/
theorem whole_of_append {ds : List (List UInt8)} :
    ∀ {cs : List (List UInt8)}, Whole (cs ++ ds) → Whole cs
  | [], _ => trivial
  | c :: cs, h => by
      refine ⟨fun j hj hmark => h.1 j hj ?_, whole_of_append h.2⟩
      show frame_end <+: (restOf c ++ (cs ++ ds).flatten).drop j
      rw [List.flatten_append, ← List.append_assoc, List.drop_append_of_le_length (by
        rw [List.length_append]
        omega)]
      exact hmark.trans (List.prefix_append _ _)

/-- **The buffer of the `i`-th call starts with the `i`-th notice.** -/
theorem parsed_notice {rs : List Notice} {data buf : List UInt8} {cs : List (List UInt8)}
    (hbuf : buf.length = RX_LEN) (hw : Whole cs) (hs : cs.flatten <+: stream rs) {i : ℕ}
    {call : List UInt8 × ℕ} (hi : (uart_task (Uart.start data buf) cs).rx.parsed[i]? = some call) :
    ∃ r older, rs[i]? = some r ∧ call.1 = r.bytes ++ older := by
  have hpre := pieces_of_stream hs
  have hfit : ∀ p ∈ (segments frame_end 2 cs.flatten).1, p.length ≤ RX_LEN := by
    intro p hp
    obtain ⟨r, -, rfl⟩ := List.mem_map.mp (hpre.subset hp)
    exact r.length_bytes_le
  have hstart : (Uart.start data buf).rx.Ready := ⟨hbuf, rfl⟩
  have hcalls : (uart_task (Uart.start data buf) cs).rx.calls
      = (segments frame_end 2 cs.flatten).1.map fun p => (p, p.length) := by
    rw [uart_task_whole cs _ hw]
    show Rx.calls (List.foldl Rx.put _ _) = _
    unfold Rx.calls
    rw [foldl_put_parsed]
    exact (parse_segments _ _ hstart hfit).2
  -- the accumulated bytes are the piece, and the piece is a notice
  have hget := congrArg (fun l => l[i]?) hcalls
  unfold Rx.calls at hget
  simp only [List.getElem?_map, hi, Option.map_some] at hget
  obtain ⟨p, hp, hpair⟩ := Option.map_eq_some_iff.mp hget.symm
  obtain ⟨htake, hcnt⟩ := Prod.mk.inj hpair
  have hrs : (rs.map Notice.bytes)[i]? = some p := by
    obtain ⟨tl, htl⟩ := hpre
    rw [← htl]
    exact List.getElem?_append_left (List.getElem?_eq_some_iff.mp hp).1 ▸ hp
  rw [List.getElem?_map, Option.map_eq_some_iff] at hrs
  obtain ⟨r, hr, hrp⟩ := hrs
  refine ⟨r, call.1.drop call.2, hr, ?_⟩
  rw [hrp, htake, List.take_append_drop]

/-! ## §4. What a run has decoded. -/

/-- The run reads from the line, less than `RX_LEN` bytes at a time, and every
read is whole before the bytes that follow it. -/
structure Feeds (rs : List Notice) (ls : List Move) : Prop where
  whole : Whole (reads ls)
  short : ∀ c ∈ reads ls, c.length < RX_LEN
  onLine : (reads ls).flatten <+: stream rs

theorem Feeds.of_append {rs : List Notice} {ls ks : List Move} (h : Feeds rs (ls ++ ks)) :
    Feeds rs ls := by
  obtain ⟨hw, hshort, hline⟩ := h
  rw [reads_append] at hw hshort hline
  refine ⟨whole_of_append hw, fun c hc => hshort c (List.mem_append_left _ hc), ?_⟩
  rw [List.flatten_append] at hline
  exact (List.prefix_append _ _).trans hline

theorem Feeds.of_prefix {rs : List Notice} {ls ks : List Move} (h : Feeds rs ls)
    (hpre : ks <+: ls) : Feeds rs ks := by
  obtain ⟨tl, rfl⟩ := hpre
  exact h.of_append

/-- What `STONER` shows after the notices. -/
def after (rs : List Notice) : Contents :=
  rs.foldl (fun c r => r.item.onto c) Receiver.init.contents

theorem after_take_succ {rs : List Notice} {i : ℕ} {r : Notice} (h : rs[i]? = some r) :
    after (rs.take (i + 1)) = r.item.onto (after (rs.take i)) := by
  unfold after
  rw [List.take_add_one, h, List.foldl_append]
  rfl

/-- **The condition of the clearing.**  Each notice finds blocks with room for what it clears. -/
def Roomy (rs : List Notice) : Prop := History.Fits [] (rs.map Notice.frame)

instance (rs : List Notice) : Decidable (Roomy rs) :=
  inferInstanceAs (Decidable (History.Fits [] (rs.map Notice.frame)))

/-- The frames of the notices, the last of them first. -/
def past (rs : List Notice) : History := (rs.map Notice.frame).reverse

theorem Roomy.take {rs : List Notice} (h : Roomy rs) (k : ℕ) : Roomy (rs.take k) := by
  unfold Roomy at h
  rw [← List.take_append_drop k rs, List.map_append] at h
  exact h.of_append

theorem roomy_take_succ {rs : List Notice} {i : ℕ} {r : Notice} (h : rs[i]? = some r) :
    Roomy (rs.take (i + 1)) ↔ Roomy (rs.take i) ∧ (past (rs.take i)).FrameFits r.frame := by
  unfold Roomy past
  rw [List.take_add_one, h, List.map_append]
  refine (History.fits_concat fun f hf => ?_).trans (by rw [List.append_nil])
  obtain ⟨r', -, rfl⟩ := List.mem_map.mp hf
  exact r'.isSys_eq_false

namespace Panel

/-- **A call of `receive_parse` decodes the next notice**, and nothing else moves. -/
theorem parse_notice {P : Platform} {rs : List Notice} {data buf : List UInt8} {ls : List Move}
    {p t : Panel} (hbuf : buf.length = RX_LEN) (hls : Feeds rs ls)
    (hp : exec (step P) (start data buf) ls = some p) (ht : p.step P .parse = some t) :
    ∃ r s, rs[p.handled]? = some r ∧ r.Leaves p.receiver s ∧
      t = { p with
        handled := p.handled + 1
        receiver := s
        Stone_CMD_buf_handle := p.Stone_CMD_buf_handle.send () } := by
  obtain ⟨c, hm, -⟩ | ⟨call, s, posted, -, hcall, hr, rfl⟩ | ⟨q, u, hm, -⟩ |
    ⟨e, u, ⟨hm, -⟩ | ⟨hm, -⟩, -⟩ := step_cases ht
  · cases hm
  · rw [uart_run ls p hp] at hcall
    obtain ⟨r, older, hget, hbytes⟩ := parsed_notice hbuf hls.whole hls.onLine hcall
    obtain ⟨s', hs', hleaves⟩ := r.receive_parse_notice older p.receiver
    rw [hbytes, hs'] at hr
    cases hr
    exact ⟨r, s, hget, hleaves, rfl⟩
  · cases hm
  · cases hm
  · cases hm

/-- `STONER` shows the notices handled so far, its blocks are theirs, and nothing is posted
before them. -/
structure Decoded (rs : List Notice) (p : Panel) : Prop where
  contents : p.receiver.contents = after (rs.take p.handled)
  tracks : Tracks (past (rs.take p.handled)) p.receiver
  clears : p.receiver.ClearsFit ↔ Roomy (rs.take p.handled)
  handled_le : p.handled ≤ rs.length
  posted : p.Stone_CMD_buf_handle.items ≠ [] → 0 < p.handled

/-- **Every run over the line decodes its notices, one by one.** -/
theorem decoded_run {P : Platform} {rs : List Notice} {data buf : List UInt8}
    (hbuf : buf.length = RX_LEN) (ls : List Move) :
    ∀ p, Feeds rs ls → exec (step P) (start data buf) ls = some p → p.Decoded rs := by
  induction ls using List.reverseRecOn with
  | nil =>
      intro p _ hp
      rw [exec_nil, Option.some.injEq] at hp
      rw [← hp]
      refine ⟨rfl, tracks_init, ?_, Nat.zero_le _, fun h => absurd rfl h⟩
      exact iff_of_true (fun c hc => by cases hc) trivial
  | append_singleton ls m ih =>
      intro p hls hp
      rw [exec_concat, Option.bind_eq_some_iff] at hp
      obtain ⟨u, hu, hup⟩ := hp
      have hdec : u.Decoded rs := ih u hls.of_append hu
      obtain ⟨c, -, -, rfl⟩ | ⟨call, s, posted, rfl, -, -, -⟩ | ⟨q, t, -, hq, -, rfl⟩ |
        ⟨e, t, -, -, rfl⟩ := step_cases hup
      · exact ⟨hdec.contents, hdec.tracks, hdec.clears, hdec.handled_le, hdec.posted⟩
      · obtain ⟨r, s', hget, hleaves, rfl⟩ := parse_notice hbuf hls.of_append hu hup
        obtain ⟨htracks, hclears⟩ := hleaves.tracks _ hdec.tracks
        have hpast : past (rs.take (u.handled + 1)) = r.frame :: past (rs.take u.handled) := by
          unfold past
          rw [List.take_add_one, hget, List.map_append, List.reverse_append]
          rfl
        refine ⟨?_, hpast ▸ htracks, ?_, (List.getElem?_eq_some_iff.mp hget).1,
          fun _ => Nat.succ_pos _⟩
        · rw [hleaves.contents, hdec.contents]
          exact (after_take_succ hget).symm
        · rw [roomy_take_succ hget, ← hdec.clears, ← clears_within_iff]
          unfold Receiver.ClearsFit
          rw [hclears]
          exact List.forall_mem_append
      · -- what is left of the queue was posted before
        refine ⟨hdec.contents, hdec.tracks, hdec.clears, hdec.handled_le, fun _ => hdec.posted ?_⟩
        rw [Fifo.receive_eq_some_iff.mp hq]
        exact List.cons_ne_nil _ _
      · exact ⟨hdec.contents, hdec.tracks, hdec.clears, hdec.handled_le, hdec.posted⟩

end Panel

end StoneHMI
