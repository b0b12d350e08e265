/-
  StoneHMI.System.Drive
  ─────────────────────
  **BRINGING THE PANEL SOMEWHERE — notices that arrive and are decoded.**

  `feed r` reads the notice `r` in two reads and has it parsed; nobody takes
  a pointer.  From any idle panel it leaves an idle panel that shows `r`, with
  a pointer waiting (`feed_one`), so a list of notices can be fed one after
  the other (`drive`).  The reads of a feed are whole and below `RX_LEN`
  bytes, and spell the notices' bytes (`feeds_feedAll`).
-/
import StoneHMI.System.Panel
import StoneHMI.System.Stale

namespace StoneHMI

open Labelled Delimiter CMemory CText

/-! ## §1. One notice in two reads. -/

/-- The first byte, the others, and the call of `receive_parse`. -/
def feed (r : Notice) : List Move := [.read (r.bytes.take 1), .read (r.bytes.drop 1), .parse]

def feedAll (rs : List Notice) : List Move := (rs.map feed).flatten

theorem feedAll_cons (r : Notice) (rs : List Notice) : feedAll (r :: rs) = feed r ++ feedAll rs :=
  rfl

namespace Notice

theorem bytes_cons (r : Notice) : r.bytes = 0x53 :: r.bytes.drop 1 := by
  have h := r.frame.bytes_append []
  rw [List.append_nil] at h
  show r.frame.bytes = _ :: r.frame.bytes.drop 1
  rw [h]
  rfl

theorem take_one (r : Notice) : r.bytes.take 1 = [0x53] := by
  rw [r.bytes_cons]
  rfl

/-- A first byte is no start of a `'>ET'`. -/
theorem wholeBefore_take_one (r : Notice) (f : List UInt8) : WholeBefore (r.bytes.take 1) f := by
  have hnone : findMark frame_end [(0x53 : UInt8)] = none := by decide
  have hrest : restOf [(0x53 : UInt8)] = [0x53] := by
    unfold restOf
    rw [segments_none hnone]
  rw [r.take_one]
  intro j hj hmark
  rw [hrest] at hj hmark
  obtain rfl : j = 0 := by simpa using hj
  have hbyte := (List.cons_prefix_cons.mp hmark).1
  exact absurd hbyte (by decide)

/-- The other bytes end with their terminator and its two bytes. -/
theorem wholeBefore_drop_one (r : Notice) (f : List UInt8) : WholeBefore (r.bytes.drop 1) f := by
  have hlen : r.bytes.length = r.frame.payload.data.length + 12 := r.frame.length_bytes
  obtain ⟨-, hmark, hfirst⟩ := (findMark_eq_some_iff frame_end r.bytes _).mp r.findMark_bytes
  have hfind : findMark frame_end (r.bytes.drop 1) = some (r.frame.payload.data.length + 6) := by
    refine (findMark_eq_some_iff frame_end _ _).mpr ⟨?_, ?_, fun j hj => ?_⟩
    · rw [List.length_drop]
      omega
    · rw [List.drop_drop, show 1 + (r.frame.payload.data.length + 6)
        = r.frame.payload.data.length + 7 by omega]
      exact hmark
    · rw [List.drop_drop]
      exact hfirst (1 + j) (by omega)
  have hrest : restOf (r.bytes.drop 1) = [] := by
    have hcut : r.frame.payload.data.length + 6 + 5 = (r.bytes.drop 1).length := by
      rw [List.length_drop]
      omega
    rw [restOf_cut hfind hcut.le, hcut, List.drop_length]
    rfl
  intro j hj
  rw [hrest] at hj
  exact absurd hj (Nat.not_lt_zero j)

end Notice

/-! ## §2. The reads of a feed. -/

theorem reads_feedAll : ∀ rs : List Notice,
    reads (feedAll rs) = (rs.map fun r => [r.bytes.take 1, r.bytes.drop 1]).flatten
  | [] => rfl
  | r :: rs => by
      rw [feedAll_cons, reads_append, reads_feedAll rs]
      rfl

theorem whole_feedAll : ∀ rs : List Notice, Whole (reads (feedAll rs))
  | [] => trivial
  | r :: rs => by
      rw [feedAll_cons, reads_append]
      exact ⟨r.wholeBefore_take_one _, r.wholeBefore_drop_one _, whole_feedAll rs⟩

theorem flatten_reads_feedAll : ∀ rs : List Notice, (reads (feedAll rs)).flatten = stream rs
  | [] => rfl
  | r :: rs => by
      rw [feedAll_cons, reads_append, List.flatten_append, flatten_reads_feedAll rs]
      show r.bytes.take 1 ++ (r.bytes.drop 1 ++ []) ++ stream rs = r.bytes ++ stream rs
      rw [List.append_nil, List.take_append_drop]

/-- **A run that reads what a feed reads is over the line.** -/
theorem feeds_feedAll {rs ds : List Notice} {ls : List Move} (hds : ds <+: rs)
    (h : reads ls = reads (feedAll ds)) : Feeds rs ls := by
  refine ⟨h ▸ whole_feedAll ds, fun c hc => ?_, ?_⟩
  · rw [h, reads_feedAll, List.mem_flatten] at hc
    obtain ⟨l, hl, hcl⟩ := hc
    obtain ⟨r, -, rfl⟩ := List.mem_map.mp hl
    have hR : RX_LEN = 200 := rfl
    have hlong := r.length_bytes_le
    rcases List.mem_cons.mp hcl with rfl | hc'
    · rw [r.take_one]
      decide
    · rw [List.mem_singleton.mp hc', List.length_drop]
      have hpos : r.bytes ≠ [] := by
        rw [r.bytes_cons]
        exact List.cons_ne_nil _ _
      have := List.length_pos_iff.mpr hpos
      omega
  · obtain ⟨tl, rfl⟩ := hds
    rw [h, flatten_reads_feedAll]
    unfold stream
    rw [List.map_append, List.flatten_append]
    exact List.prefix_append _ _

/-! ## §3. Feeding the panel. -/

namespace Panel

/-- Nothing is accumulated, and every call is carried out. -/
def Idle (p : Panel) : Prop := p.uart.rx.Ready ∧ p.handled = p.uart.rx.parsed.length

theorem idle_start {data buf : List UInt8} (hbuf : buf.length = RX_LEN) :
    (start data buf).Idle := ⟨⟨hbuf, rfl⟩, rfl⟩

/-- The two reads put one call at the end. -/
theorem uart_feed {u : Uart} (hu : u.rx.Ready) (r : Notice) :
    ∃ older, (uart_task u [r.bytes.take 1, r.bytes.drop 1]).rx.Ready ∧
      (uart_task u [r.bytes.take 1, r.bytes.drop 1]).rx.parsed
        = u.rx.parsed ++ [(r.bytes ++ older, r.bytes.length)] := by
  have hwhole : Whole [r.bytes.take 1, r.bytes.drop 1] :=
    ⟨r.wholeBefore_take_one _, r.wholeBefore_drop_one _, trivial⟩
  have hflat : [r.bytes.take 1, r.bytes.drop 1].flatten = stream [r] := by
    show r.bytes.take 1 ++ (r.bytes.drop 1 ++ []) = r.bytes ++ []
    rw [List.append_nil, List.append_nil, List.take_append_drop]
  have hrx : (uart_task u [r.bytes.take 1, r.bytes.drop 1]).rx
      = (r.bytes.foldl Rx.put u.rx).parse := by
    rw [uart_task_whole _ u hwhole, hflat]
    unfold Rx.assembleStream
    rw [segments_stream]
    rfl
  rw [hrx]
  refine ⟨u.rx.STONE_RX_BUF.drop r.bytes.length, (parse_segment hu r.length_bytes_le).1, ?_⟩
  rw [foldl_put_zero hu.1 hu.2 r.length_bytes_le]
  rfl

/-- **One notice is fed.** -/
theorem feed_one (P : Platform) {p : Panel} (hp : p.Idle) (r : Notice) :
    ∃ t, exec (step P) p (feed r) = some t ∧ t.Idle ∧
      t.receiver.contents = r.item.onto p.receiver.contents ∧ t.sys = p.sys ∧
      t.Stone_CMD_buf_handle = p.Stone_CMD_buf_handle.send () ∧ t.handled = p.handled + 1 := by
  obtain ⟨hready, hhandled⟩ := hp
  obtain ⟨older, hready', hparsed⟩ := uart_feed hready r
  obtain ⟨s, hs, hleaves⟩ := r.receive_parse_notice older p.receiver
  set u₁ := uart_read p.uart (r.bytes.take 1) with hu₁
  set u₂ := uart_read u₁ (r.bytes.drop 1) with hu₂
  have htask : uart_task p.uart [r.bytes.take 1, r.bytes.drop 1] = u₂ := rfl
  rw [htask] at hready' hparsed
  have hfirst : u₁.rx.parsed = p.uart.rx.parsed := by
    rw [hu₁, r.take_one, uart_read_single]
    rfl
  -- the two reads, and then the call they ended with
  have hread₁ : p.step P (.read (r.bytes.take 1)) = some { p with uart := u₁ } := by
    show (if _ then _ else _) = _
    rw [if_pos hhandled]
  have hread₂ : step P { p with uart := u₁ } (.read (r.bytes.drop 1))
      = some { p with uart := u₂ } := by
    show (if p.handled = u₁.rx.parsed.length then _ else _) = _
    rw [hfirst, if_pos hhandled]
  have hcall : u₂.rx.parsed[p.handled]? = some (r.bytes ++ older, r.bytes.length) := by
    rw [hparsed, hhandled]
    exact List.getElem?_concat_length
  set t : Panel := { p with
    uart := u₂
    handled := p.handled + 1
    receiver := s
    Stone_CMD_buf_handle := p.Stone_CMD_buf_handle.send () } with ht
  have hparse : step P { p with uart := u₂ } .parse = some t := by
    unfold step
    simp only [hcall, hs, if_true]
    rfl
  refine ⟨t, ?_, ⟨hready', ?_⟩, hleaves.contents, rfl, rfl, rfl⟩
  · unfold feed
    rw [exec_cons, hread₁, Option.bind_some, exec_cons, hread₂, Option.bind_some, exec_cons,
      hparse, Option.bind_some, exec_nil]
  · show p.handled + 1 = u₂.rx.parsed.length
    rw [hparsed, List.length_append, hhandled]
    rfl

/-- After a pointer is sent, one waits. -/
theorem items_send_ne_nil (q : Fifo Unit 5) : (q.send ()).items ≠ [] := by
  by_cases hfull : q.Full
  · rw [Fifo.send_of_full hfull]
    intro hnil
    rw [Fifo.Full, hnil] at hfull
    cases hfull
  · rw [Fifo.items_send_of_not_full hfull]
    exact List.append_ne_nil_of_right_ne_nil _ (List.cons_ne_nil _ _)

/-- **Notices are fed one after the other**, and the last of them waits to be taken. -/
theorem drive (P : Platform) : ∀ (ds : List Notice) {p : Panel}, p.Idle →
    ∃ t, exec (step P) p (feedAll ds) = some t ∧ t.Idle ∧
      t.receiver.contents = ds.foldl (fun c r => r.item.onto c) p.receiver.contents ∧
      t.sys = p.sys ∧ (ds ≠ [] → t.Stone_CMD_buf_handle.items ≠ []) ∧
      t.handled = p.handled + ds.length
  | [], p, hp => ⟨p, rfl, hp, rfl, rfl, fun h => absurd rfl h, rfl⟩
  | r :: ds, p, hp => by
      obtain ⟨u, hu, huidle, hucontents, husys, huq, huhandled⟩ := feed_one P hp r
      obtain ⟨t, ht, htidle, htcontents, htsys, htq, hthandled⟩ := drive P ds huidle
      refine ⟨t, ?_, htidle, ?_, htsys.trans husys, fun _ => ?_, ?_⟩
      · rw [feedAll_cons, exec_append, hu]
        exact ht
      · rw [htcontents, hucontents]
        rfl
      · cases ds with
        | nil =>
            rw [show t = u from (Option.some.inj ht).symm, huq]
            exact items_send_ne_nil _
        | cons d ds => exact htq (List.cons_ne_nil d ds)
      · rw [hthandled, huhandled, List.length_cons]
        omega

/-- Where a pointer waits, `stone_cmd` takes it and handles what it shows. -/
theorem take_item {P : Platform} {p : Panel} (hq : p.Stone_CMD_buf_handle.items ≠ [])
    {r : Ctl × List Effect} (hr : stone_cmd P p.receiver.contents p.sys.ctl = .ok r) :
    ∃ q, p.step P .take = some { p with
      Stone_CMD_buf_handle := q
      sys := { p.sys with ctl := r.1, effects := p.sys.effects ++ r.2 } } := by
  cases hrec : p.Stone_CMD_buf_handle.receive with
  | none => exact absurd (Fifo.receive_eq_none_iff.mp hrec) hq
  | some a =>
      refine ⟨a.2, ?_⟩
      unfold step
      simp only [hrec, Sys.step, hr, Option.map_some]

/-- Where `stone_cmd` crashes, the pointer is not taken. -/
theorem take_crash {P : Platform} {p : Panel} {f : Fault}
    (hr : stone_cmd P p.receiver.contents p.sys.ctl = .error f) : p.step P .take = none := by
  unfold step
  cases p.Stone_CMD_buf_handle.receive with
  | none => rfl
  | some a => simp only [Sys.step, hr, Option.map_none]

end Panel

/-! ## §4. The button `P01`, and a countdown. -/

theorem spells_P01 : pressedP01.plan
    = some { widget := Block.filled 4 (str "P01"), widgetLen := 4, value := some fun _ => 1 } := rfl

theorem markFree_P01 : ¬ frame_end <:+:
    UInt8.ofNat pressedP01.payload.data.length :: pressedP01.payload.data := by decide

/-- The display tells that `P01` was pressed. -/
def noticeP01 : Notice := ⟨pressedP01, _, spells_P01, markFree_P01⟩

theorem spells_countdown : reportedCountdown.plan
    = some
      { widget := Block.filled 40 (str "label_timer_count_down" ++ [0]), widgetLen := 40,
        text := some (Block.filled 4 (str "1:59" ++ [0]), 4), nameLen := some 22 } := rfl

theorem markFree_countdown : ¬ frame_end <:+:
    UInt8.ofNat reportedCountdown.payload.data.length :: reportedCountdown.payload.data := by
  decide

/-- The display tells what its countdown label shows. -/
def noticeCountdown : Notice := ⟨reportedCountdown, _, spells_countdown, markFree_countdown⟩

/-- A board's buffers after a reset. -/
def panelAtReset : Panel := Panel.start [] (List.replicate RX_LEN 0)

end StoneHMI
