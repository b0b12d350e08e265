/-
  StoneHMI.System.Display
  ───────────────────────
  **WHAT THE DISPLAY GETS TO SEE — main.c, spiffs.c and stone_transport.c together.**

  The display cuts the bytes on the UART behind each `>ET` and reads a command
  from each piece.  `firmware_displays_iff` is exact over all runs of the tasks
  (System.Firmware), in any order of their steps: every buffer on the way is
  kept and the display reads back each command as it was meant, the history
  being the newest rows saved, if and only if every step is `Safe`.

    §1  the property              §4  one call
    §2  commands that arrive      §5  one step
    §3  what an event leads to    §6  whole runs
-/
import StoneHMI.System.Firmware

namespace StoneHMI

open CText CMemory Labelled

/-! ## §1. The property. -/

/-- The display can read the command: its frame fits `STONE_TX_BUF`, is cut behind its end, and
is read as the command. -/
def Command.Reads (c : Command) : Prop :=
  ∃ w, c.frame = some w ∧ w.length < TX_LEN ∧
    Delimiter.segments frameMark 0 w = ([w], []) ∧ decodeFrame w = some c

/-- The fields of the newest rows. -/
def newestFields (saved : List SaveCall) : List Fields :=
  (saved.reverse.take LOG_MAX).map SaveCall.fields

namespace Firmware

/-- No buffer is left: nothing is printed past its end, and `strlen` finds the end of what it
reads. -/
structure InBounds (f : Firmware) : Prop where
  STONE_TX_BUF : f.faulted = false
  /-- `char t[3]` of the branch `P01`, whose text is the label `FREQ2`. -/
  t : ∀ text, Command.set_text (str "label") (str "FREQ2") text false ∈ f.called → text.length < 3
  /-- `memset(pressure_value, 0, strlen(pressure_value))` of an array that nothing initialises. -/
  strlen : ∀ pressure_value ∈ f.cleared, 0 ∈ pressure_value
  pressure_value : ∀ r ∈ f.rounds, r.text.length < PRESSURE_VALUE_SIZE
  buffer_time : ∀ c ∈ f.saved, c.row.length < 30
  push_history : ∀ u ∈ f.uploads, HistoryInBounds u.1 u.2

/-- The display sees what is meant. -/
structure Displayed (f : Firmware) : Prop where
  /-- It cuts the bytes into frames and finds the commands that were handed over. -/
  handed : ∃ ws, Delimiter.segments frameMark 0 f.bytes = (ws, []) ∧
    ws.map decodeFrame = f.handed.map some
  /-- What a task has printed and not handed over still stands in the buffer. -/
  printed : ∀ t c, f.printed t = some c → c.frame = some f.tx.current
  called : ∀ c ∈ f.called, c.Reads
  /-- An upload is the columns of the newest rows. -/
  uploads : ∀ u ∈ f.uploads,
    StoneHMI.push_history (some (callsFile u.1)) u.2 = columnsOf (newestFields u.1)

/-- **The condition.**  P01 finds a mode of two digits, a round finds an end in its array, a
command is printed while no other one waits to be handed over, a row fits its buffer, and the
history is uploaded when there is a row and the newest ones are narrow. -/
def Safe (f : Firmware) : Work → Prop
  | .control (.item c) => c.widget.bind handlerOf = some .P01 → f.sys.ctl.mode.toNat < 100
  | .clear => 0 ∈ f.pressure_value
  | .call t now _ =>
      match f.todo t with
      | .send c :: _ => ∀ u d, f.printed u = some d → d = c
      | .save_history mode time :: _ => SaveCall.RowWithin 29 ⟨now, mode, time⟩
      | .push_history :: _ => f.saved ≠ [] ∧ ∀ c ∈ f.saved.reverse.take LOG_MAX, c.Narrow
      | _ => True
  | _ => True

end Firmware

/-! ## §2. Commands that arrive. -/

/-- The display can read the command, and its frame fits `STONE_TX_BUF`. -/
structure Command.Arrives (c : Command) : Prop where
  accepted : c.Accepted
  fits : ∀ w ∈ c.frame, w.length < TX_LEN

theorem Command.Arrives.reads {c : Command} (h : c.Arrives) : c.Reads := by
  obtain ⟨fs, hframe, hmembers, hfree⟩ := Command.frame_object h.accepted
  have hmark := findMark_frame hfree
  have hcut := Delimiter.segments_flatten (k := 0) (by decide : frameMark ≠ [])
    [str "ST<" ++ Json.object fs ++ frameMark] fun p hp => ⟨_, List.mem_singleton.mp hp ▸ hmark, by
      rw [List.mem_singleton.mp hp, Nat.add_zero, ← List.length_append]⟩
  refine ⟨_, hframe, h.fits _ hframe, ?_, ?_⟩
  · rwa [List.flatten_singleton] at hcut
  · unfold decodeFrame
    rw [frameMembers_object]
    exact hmembers

/-- A command that arrives and is not the label of `char t[3]`. -/
def Command.Routine (c : Command) : Prop :=
  c.Arrives ∧ ∀ text, c ≠ .set_text (str "label") (str "FREQ2") text false

theorem nameLike_digit {b : UInt8} (h : isDigit b = true) : Json.PlainByte b ∧ b ≠ 0x3e := by
  refine ⟨Json.plainByte_digit h, ?_⟩
  rintro rfl
  exact absurd h (by decide)

theorem nameLike_decimal (n : ℕ) : NameLike (decimal n) := fun _ hb =>
  nameLike_digit (isDigit_of_mem_decimal hb)

theorem NameLike.append {s t : List UInt8} (hs : NameLike s) (ht : NameLike t) :
    NameLike (s ++ t) := fun b hb => (List.mem_append.mp hb).elim (hs b) (ht b)

theorem NameLike.cons {b : UInt8} {s : List UInt8} (hb : Json.PlainByte b ∧ b ≠ 0x3e)
    (hs : NameLike s) : NameLike (b :: s) := List.forall_mem_cons.mpr ⟨hb, hs⟩

/-- A label's text that is short enough for the frame. -/
theorem arrives_label {name text : List UInt8} (hname : NameLike name) (htext : NameLike text)
    (hlen : name.length + text.length < 4900) :
    (Command.set_text (str "label") name text false).Arrives := by
  constructor
  · exact ⟨by decide, hname, htext⟩
  · intro w hw
    have hconst : STR_HEAD_CMD2.length = 15 ∧ (str "set_text").length = 8 ∧
        (str "type").length = 4 ∧ (str "label").length = 5 ∧ (str "widget").length = 6 ∧
        (str "text").length = 4 ∧ STR_END.length = 4 := ⟨rfl, rfl, rfl, rfl, rfl, rfl, rfl⟩
    have htx : TX_LEN = 5000 := rfl
    obtain rfl : _ = w := Option.some.inj hw
    simp only [commandFrame, List.map_cons, List.map_nil, List.flatten_cons, List.flatten_nil,
      List.append_nil, List.length_append, List.length_cons, List.length_nil, field, quoted,
      Bool.false_eq_true, if_false]
    omega

theorem arrives_set_date {date : List UInt8} (hdate : NameLike date) (hlen : date.length < 80) :
    (Command.set_date (str "digit_clock1") date).Arrives := by
  constructor
  · exact ⟨by decide, hdate⟩
  · intro w hw
    have hconst : STR_HEAD_CMD2.length = 15 ∧ (str "set_date").length = 8 ∧
        (str "type").length = 4 ∧ (str "digit_clock").length = 11 ∧ (str "widget").length = 6 ∧
        (str "digit_clock1").length = 12 ∧ (str "date").length = 4 ∧ STR_END.length = 4 :=
      ⟨rfl, rfl, rfl, rfl, rfl, rfl, rfl, rfl⟩
    have htx : TX_LEN = 5000 := rfl
    obtain rfl : _ = w := Option.some.inj hw
    simp only [commandFrame, List.map_cons, List.map_nil, List.flatten_cons, List.flatten_nil,
      List.append_nil, List.length_append, List.length_cons, List.length_nil, field, quoted]
    omega

theorem nameLike_countdownText (record : UInt32) : NameLike (countdownText record) := by
  have hsecond := nameLike_decimal (record % 60).toNat
  unfold countdownText
  refine (nameLike_decimal _).append (NameLike.cons (by decide) ?_)
  split
  · exact NameLike.cons (by decide) hsecond
  · exact hsecond

/-- At most ten digits on either side of the colon. -/
theorem length_countdownText (record : UInt32) : (countdownText record).length ≤ 22 := by
  have hdigits : ∀ n : UInt32, (decimal n.toNat).length ≤ 10 := fun n => by
    rw [decimal_length_le_iff (by decide)]
    exact n.toNat_lt.trans (by decide)
  have hminutes := hdigits (record / 60)
  have hsecond := hdigits (record % 60)
  unfold countdownText
  dsimp only
  split <;> simp only [List.length_append, List.length_cons] <;> omega

/-- The five columns of such fields. -/
theorem arrives_columns {rows : List Fields} (hrows : ∀ f ∈ rows, NameLike f.str1 ∧
      NameLike f.str2 ∧ NameLike f.str3 ∧ NameLike f.str4) (hne : rows ≠ [])
    (hfit : ∀ c ∈ columnsOf rows, ∃ w, c.frame = some w ∧ w.length < TX_LEN) :
    ∀ c ∈ columnsOf rows, c.Arrives := by
  have hmap : ∀ g : Fields → List UInt8, (∀ f ∈ rows, NameLike (g f)) →
      Listed (column (rows.map g)) := by
    intro g hg
    refine ⟨rows.map g, fun s hs => ?_, column_eq_stringArray (by simpa using hne)⟩
    obtain ⟨f, hf, rfl⟩ := List.mem_map.mp hs
    exact hg f hf
  have hindex : Listed (column ((List.range rows.length).map fun i => decimal (i + 1))) := by
    refine ⟨_, fun s hs => ?_, column_eq_stringArray (by simpa using hne)⟩
    obtain ⟨i, -, rfl⟩ := List.mem_map.mp hs
    exact nameLike_decimal (i + 1)
  intro c hc
  constructor
  · unfold columnsOf columnLabels at hc
    simp only [List.mem_cons, List.not_mem_nil, or_false] at hc
    rcases hc with rfl | rfl | rfl | rfl | rfl
    · exact ⟨by decide, by decide, hindex⟩
    · exact ⟨by decide, by decide, hmap _ fun f hf => (hrows f hf).1⟩
    · exact ⟨by decide, by decide, hmap _ fun f hf => (hrows f hf).2.1⟩
    · exact ⟨by decide, by decide, hmap _ fun f hf => (hrows f hf).2.2.1⟩
    · exact ⟨by decide, by decide, hmap _ fun f hf => (hrows f hf).2.2.2⟩
  · intro w hw
    obtain ⟨v, hv, hlt⟩ := hfit c hc
    rw [hv] at hw
    cases hw
    exact hlt

theorem SaveCall.nameLike_fields (c : SaveCall) : NameLike c.fields.str1 ∧
    NameLike c.fields.str2 ∧ NameLike c.fields.str3 ∧ NameLike c.fields.str4 := by
  refine ⟨fun b hb => ?_, nameLike_decimal _, nameLike_decimal _,
    fun b hb => nameLike_decimal _ b (List.mem_of_mem_take hb)⟩
  rcases Stamp.mem_text hb with h | rfl | rfl | rfl
  · exact nameLike_digit h
  · decide
  · decide
  · decide

/-- **The percentage of a round**, and its two labels. -/
theorem SensorRound.exists_displays (r : SensorRound) : ∃ (s : Round) (q : ℤ), s.Displays q ∧
    r.text = decimalInt q ∧ r.labels = [
      .set_text (str "label") (str "label_pressure_start") (decimalInt q) false,
      .set_text (str "label") (str "label_pressure_stop") (decimalInt q) false] := by
  obtain ⟨s, rest, hloop⟩ := (Round.loop_start_stops_iff r.shots).mpr r.enough
  obtain ⟨q, hq⟩ := Round.displays_of_shots r.returned hloop
  have hfinal : r.final = some s := by
    unfold final
    rw [hloop]
    rfl
  refine ⟨s, q, hq, ?_, ?_⟩
  · unfold text
    rw [hfinal, Option.bind_some, hq.percentage]
    rfl
  · unfold labels
    rw [hfinal, Option.bind_some, hq.sent]
    rfl

/-- The percentage has three digits at most. -/
theorem SensorRound.length_text (r : SensorRound) : r.text.length < PRESSURE_VALUE_SIZE := by
  obtain ⟨s, q, hq, htext, -⟩ := r.exists_displays
  rw [htext]
  exact hq.fits

theorem SensorRound.routine (r : SensorRound) : ∀ c ∈ r.labels, c.Routine := by
  obtain ⟨s, q, hq, -, hlabels⟩ := r.exists_displays
  have htext : NameLike (decimalInt q) := by
    unfold decimalInt
    split
    · exact NameLike.cons (by decide) (nameLike_decimal _)
    · exact nameLike_decimal _
  have hlen : (decimalInt q).length < 5 := hq.fits
  have hstart : (str "label_pressure_start").length = 20 := rfl
  have hstop : (str "label_pressure_stop").length = 19 := rfl
  intro c hc
  rw [hlabels] at hc
  simp only [List.mem_cons, List.not_mem_nil, or_false] at hc
  rcases hc with rfl | rfl
  · exact ⟨arrives_label (by decide) htext (by omega), fun _ h => absurd h (by simp +decide)⟩
  · exact ⟨arrives_label (by decide) htext (by omega), fun _ h => absurd h (by simp +decide)⟩

/-- Both commands of `app_main` arrive. -/
theorem routine_main : ∀ c ∈ check_status_afer_seset, c.Routine := by
  intro c hc
  simp only [check_status_afer_seset, List.mem_cons, List.not_mem_nil, or_false] at hc
  rcases hc with rfl | rfl
  · exact ⟨⟨(by decide : NameLike (str "digit_clock1")), by decide⟩, fun _ h => by cases h⟩
  · exact ⟨⟨trivial, by decide⟩, fun _ h => by cases h⟩

/-! ## §3. What an event leads to. -/

/-- Of a time that `strptime` has read, `strftime` prints date and time into `buffer[80]`. -/
def Platform.PrintsDates (P : Platform) : Prop :=
  ∀ s tm, P.strptime s = some tm →
    NameLike (P.strftime (P.mktime tm)) ∧ (P.strftime (P.mktime tm)).length < 80

theorem routine_set_time {P : Platform} (hP : P.PrintsDates) (s : List UInt8) :
    ∀ c ∈ commandsOf (set_time_epoch_string P s).1, c.Routine := by
  cases h : P.strptime s with
  | none =>
      rw [set_time_none h]
      exact fun c hc => absurd hc List.not_mem_nil
  | some tm =>
      have hdate := hP s tm h
      rw [set_time_some h]
      split
      · exact List.forall_mem_singleton.mpr
          ⟨arrives_set_date hdate.1 hdate.2, fun _ h => by cases h⟩
      · exact fun c hc => absurd hc List.not_mem_nil

/-- A label other than `FREQ2`. -/
theorem routine_label {name text : List UInt8} (hname : NameLike name)
    (hother : name ≠ str "FREQ2") (htext : NameLike text)
    (hlen : name.length + text.length < 4900) :
    (Command.set_text (str "label") name text false).Routine :=
  ⟨arrives_label hname htext hlen, fun _ h => hother (Command.set_text.inj h).2.1⟩

/-- The answer to a time that was typed. -/
theorem routine_answer (ok : Bool) :
    (Command.set_text (str "label") (str "label_time_validation")
      (if ok then str "Set time success" else str "Set time fail, check format") false).Routine := by
  cases ok with
  | true => exact routine_label (by decide) (by decide) (by decide) (by decide)
  | false => exact routine_label (by decide) (by decide) (by decide) (by decide)

theorem routine_get_value {name : List UInt8} (hname : NameLike name)
    (hfit : ∀ w ∈ (Command.get_value (str "label") name).frame, w.length < TX_LEN) :
    (Command.get_value (str "label") name).Routine :=
  ⟨⟨⟨by decide, hname⟩, hfit⟩, fun _ h => by cases h⟩

/-- **What a branch calls**: P01 shows its mode, and every other command is routine. -/
theorem Handler.run_calls {P : Platform} (hP : P.PrintsDates) {f : BitVec 32}
    {text : Option (List UInt8)} {s t : Ctl} {calls : List Effect} {hd : Handler}
    (h : hd.run P f text s = .ok (t, calls)) :
    (hd = .P01 ∧ commandsOf calls =
      [.set_text (str "label") (str "FREQ2") (decimal s.mode.toNat) false]) ∨
    (hd ≠ .P01 ∧ ∀ c ∈ commandsOf calls, c.Routine) := by
  cases hd with
  | P01 =>
      cases h
      exact Or.inl ⟨rfl, rfl⟩
  | P02 | history | FREQ1 | FREQ2 =>
      -- a row or an upload is no command yet
      cases h
      exact Or.inr ⟨by simp, fun c hc => absurd hc List.not_mem_nil⟩
  | W01 =>
      cases h
      refine Or.inr ⟨by simp, ?_⟩
      exact List.forall_mem_singleton.mpr (routine_get_value (by decide) (by decide))
  | W02 =>
      cases h
      refine Or.inr ⟨by simp, ?_⟩
      exact List.forall_mem_singleton.mpr
        ⟨⟨⟨by decide, by decide⟩, by decide⟩, fun _ h => by cases h⟩
  | user_time_edit =>
      refine Or.inr ⟨by simp, ?_⟩
      cases text with
      | none => cases h
      | some x =>
          cases h
          intro c hc
          rw [commandsOf_append] at hc
          rcases List.mem_append.mp hc with hc | hc
          · exact routine_set_time hP x c hc
          · rw [List.mem_singleton.mp hc]
            exact routine_answer _
  | digit_clock1 =>
      refine Or.inr ⟨by simp, ?_⟩
      cases text with
      | none => cases h
      | some x =>
          cases h
          exact routine_set_time hP x
  | label_timer_count_down =>
      refine Or.inr ⟨by simp, ?_⟩
      cases text with
      | none => cases h
      | some x =>
          cases hx : scanMinutesSecond x with
          | none =>
              simp only [Handler.run, textOf, ok_bind, hx] at h
              cases h
              exact fun c hc => absurd hc List.not_mem_nil
          | some ms =>
              simp only [Handler.run, textOf, ok_bind, hx] at h
              cases h
              exact List.forall_mem_singleton.mpr (routine_get_value (by decide) (by decide))

/-- A tick shows the countdown, and at its end the window before. -/
theorem routine_timer_handle (s : Ctl) : ∀ c ∈ commandsOf (timer_handle s).2, c.Routine := by
  have hlabel : (Command.set_text (str "label") (str "label_timer_count_down")
      (countdownText (s.record - 1)) false).Routine := by
    have hname : (str "label_timer_count_down").length = 22 := rfl
    have hlen := length_countdownText (s.record - 1)
    exact routine_label (by decide) (by decide) (nameLike_countdownText _) (by omega)
  have hback : Command.back_win.Routine := ⟨⟨trivial, by decide⟩, fun _ h => by cases h⟩
  unfold timer_handle
  by_cases h0 : s.record - 1 = 0
  · simp only [if_pos h0]
    exact List.forall_mem_cons.mpr ⟨hback, List.forall_mem_singleton.mpr hlabel⟩
  · simp only [if_neg h0]
    exact List.forall_mem_singleton.mpr hlabel

theorem length_mode (mode : UInt8) : (str "FREQ2").length + (decimal mode.toNat).length < 4900 := by
  have hlt := mode.toNat_lt
  have hlen : (decimal mode.toNat).length ≤ 3 := (decimal_length_le_iff (by decide)).mpr (by omega)
  have hname : (str "FREQ2").length = 5 := rfl
  omega

/-- The upload of a log whose newest rows are narrow. -/
theorem upload_narrow {calls : List SaveCall} (hne : calls ≠ []) (stack : Fields)
    (hnarrow : ∀ c ∈ calls.reverse.take LOG_MAX, c.Narrow) :
    push_history (some (callsFile calls)) stack = columnsOf (newestFields calls) := by
  rw [push_history_turns (turnsOf_ne_nil hne stack), fields_turnsOf stack fun c hc =>
    SaveCall.short_of_narrow (hnarrow c (List.take_subset_take_left _ (Nat.sub_le _ _) hc))]
  rfl

/-- **An empty log** is uploaded as frames in which no JSON object stands. -/
theorem not_reads_empty (stack : Fields) :
    ¬ ∀ c ∈ push_history (some []) stack, c.Reads := by
  intro h
  obtain ⟨w, hw, -, -, hread⟩ := h (columnLabel 1 [0x5d]) List.mem_cons_self
  have hnone : ((columnLabel 1 [0x5d]).frame.bind decodeFrame) = none := by decide +kernel
  rw [hw, Option.bind_some, hread] at hnone
  cases hnone

/-! ## §4. One call. -/

namespace Firmware

/-- **The property**, in two parts. -/
structure Good (f : Firmware) : Prop where
  bounds : f.InBounds
  displayed : f.Displayed

/-- What always holds: the log holds the rows saved, and what is to be sent was called. -/
structure Kept (f : Firmware) : Prop where
  file : f.file = callsFile f.saved
  todo : ∀ t c, .send c ∈ f.todo t → c ∈ f.called
  printed : ∀ t c, f.printed t = some c → c ∈ f.called

/-- The controller is not part of the property. -/
theorem Good.withSys {f : Firmware} (hf : f.Good) (s : Sys) :
    ({ f with sys := s } : Firmware).Good := ⟨{ hf.bounds with }, { hf.displayed with }⟩

/-- **Calls to make** keep the property exactly when their commands do. -/
theorem good_assign_iff {f : Firmware} (hf : f.Good) (t : Task) (es : List Effect) :
    (f.assign t es).Good ↔
      (∀ text, Command.set_text (str "label") (str "FREQ2") text false ∈ commandsOf es →
        text.length < 3) ∧ ∀ c ∈ commandsOf es, c.Reads := by
  constructor
  · intro h
    exact ⟨fun text htext => h.bounds.t text (List.mem_append_right f.called htext),
      fun c hc => h.displayed.called c (List.mem_append_right f.called hc)⟩
  · rintro ⟨hshort, hreads⟩
    refine ⟨{ hf.bounds with t := fun text htext => ?_ },
      { hf.displayed with called := fun c hc => ?_ }⟩
    · exact (List.mem_append.mp htext).elim (hf.bounds.t text) (hshort text)
    · exact (List.mem_append.mp hc).elim (hf.displayed.called c) (hreads c)

theorem good_assign {f : Firmware} (hf : f.Good) (t : Task) {es : List Effect}
    (hes : ∀ c ∈ commandsOf es, c.Routine) : (f.assign t es).Good :=
  (good_assign_iff hf t es).mpr ⟨fun text htext => absurd rfl ((hes _ htext).2 text),
    fun c hc => (hes c hc).1.reads⟩

/-- A frame that fits is printed, and stands in the buffer. -/
theorem exists_print {c : Command} {w : List UInt8} (hw : c.frame = some w)
    (hfit : w.length < TX_LEN) (t : Task) (f : Firmware) :
    ∃ tx, tx.current = w ∧
      f.print t c = { f with tx := tx, printed := Function.update f.printed t (some c) } := by
  obtain ⟨tx, htx⟩ := TxBuf.print_of_lt w (TxBuf.shows_zero f.tx) hfit
  refine ⟨tx, (TxBuf.shows_print (TxBuf.shows_zero f.tx) htx).1.2, ?_⟩
  have hstart : f.tx.start w = .ok tx := htx
  unfold print
  rw [hw]
  dsimp only
  rw [hstart]

/-- **A command is printed** over nothing that waits to be handed over, but itself. -/
theorem good_print_iff {f : Firmware} (hk : f.Kept) (hf : f.Good) {t : Task} {c : Command}
    (ht : f.printed t = none) (hc : c ∈ f.called) :
    (f.print t c).Good ↔ ∀ u d, f.printed u = some d → d = c := by
  obtain ⟨w, hw, hfit, -, hread⟩ := hf.displayed.called c hc
  obtain ⟨tx, hcurrent, hprint⟩ := exists_print hw hfit t f
  rw [hprint]
  constructor
  · intro h u d hd
    have hne : u ≠ t := fun heq => by
      rw [heq, ht] at hd
      cases hd
    -- the other frame must be the one that is printed, and is read as its command
    have hframe : d.frame = some tx.current :=
      h.displayed.printed u d ((Function.update_of_ne hne _ _).trans hd)
    obtain ⟨v, hv, -, -, hreadv⟩ := hf.displayed.called d (hk.printed u d hd)
    rw [hv, Option.some.injEq] at hframe
    rw [hframe, hcurrent, hread] at hreadv
    exact (Option.some.inj hreadv).symm
  · intro hsame
    refine ⟨{ hf.bounds with }, { hf.displayed with printed := fun u d hd => ?_ }⟩
    have hdc : d = c := by
      rcases of_printed_update hd with hd | hd
      · exact (Option.some.inj hd).symm
      · exact hsame u d hd
    rw [hdc, hw, hcurrent]

/-- **A row saved** is within bounds when it fits its buffer; the display does not see it. -/
theorem good_save_iff {f : Firmware} (hf : f.Good) (t : Task) (now : Stamp) (stack : Fields)
    (mode : UInt8) (time : UInt16) :
    (f.perform t now stack (.save_history mode time)).Good ↔
      SaveCall.RowWithin 29 ⟨now, mode, time⟩ := by
  rw [SaveCall.rowWithin_iff (by decide), ← Nat.lt_succ_iff]
  constructor
  · intro h
    exact h.bounds.buffer_time _ (List.mem_append_right f.saved List.mem_cons_self)
  · intro hrow
    refine ⟨{ hf.bounds with buffer_time := fun c hc => ?_ }, { hf.displayed with }⟩
    rcases List.mem_append.mp hc with hc | hc
    · exact hf.bounds.buffer_time c hc
    · rw [List.mem_singleton.mp hc]
      exact hrow

/-- **An upload** is within bounds and shown as it is meant exactly when there is a row, and
the newest ones are narrow. -/
theorem good_upload_iff {f : Firmware} (hk : f.Kept) (hf : f.Good) (t : Task) (now : Stamp)
    (stack : Fields) :
    (f.perform t now stack .push_history).Good ↔
      f.saved ≠ [] ∧ ∀ c ∈ f.saved.reverse.take LOG_MAX, c.Narrow := by
  constructor
  · intro h
    have hlast : (f.saved, stack) ∈ f.uploads ++ [(f.saved, stack)] :=
      List.mem_append_right _ List.mem_cons_self
    refine ⟨fun hnil => ?_, ((historyInBounds_iff f.saved stack).mp
      (h.bounds.push_history _ hlast)).2⟩
    -- the frames of an empty log hold no object, and they are called
    refine not_reads_empty stack fun c hc => h.displayed.called c (List.mem_append_right _ ?_)
    have hfile : f.file = [] := by
      rw [hk.file, hnil]
      rfl
    rw [commandsOf_sends, hfile]
    exact hc
  · rintro ⟨hne, hnarrow⟩
    have hrow : ∀ c ∈ f.saved, c.RowWithin 29 := fun c hc => by
      rw [SaveCall.rowWithin_iff (by decide), ← Nat.lt_succ_iff]
      exact hf.bounds.buffer_time c hc
    have hbounds : HistoryInBounds f.saved stack :=
      (historyInBounds_iff f.saved stack).mpr ⟨hrow, hnarrow⟩
    have hupload := upload_narrow hne stack hnarrow
    have hframes := hbounds.frames
    rw [hupload] at hframes
    have harrive : ∀ c ∈ columnsOf (newestFields f.saved), c.Arrives := by
      refine arrives_columns (fun v hv => ?_) ?_ hframes
      · obtain ⟨c, -, rfl⟩ := List.mem_map.mp hv
        exact c.nameLike_fields
      · unfold newestFields
        simpa [LOG_MAX] using hne
    have hassign : (f.assign t ((StoneHMI.push_history (some f.file) stack).map .send)).Good := by
      refine (good_assign_iff hf t _).mpr ?_
      rw [commandsOf_sends, hk.file, hupload]
      refine ⟨fun text htext => ?_, fun c hc => (harrive c hc).reads⟩
      unfold columnsOf columnLabels columnLabel at htext
      simp at htext
    refine ⟨{ hassign.bounds with push_history := ?_ },
      { hassign.displayed with uploads := ?_ }⟩
    · exact List.forall_mem_append.mpr ⟨hf.bounds.push_history,
        List.forall_mem_singleton.mpr hbounds⟩
    · exact List.forall_mem_append.mpr ⟨hf.displayed.uploads,
        List.forall_mem_singleton.mpr hupload⟩

/-- **A frame is handed over** as it stands in the buffer, and read back. -/
theorem good_handOver {f : Firmware} (hk : f.Kept) (hf : f.Good) {t : Task} {c : Command}
    (hc : f.printed t = some c) :
    ({ f with
      printed := Function.update f.printed t none
      bytes := f.bytes ++ f.tx.current
      handed := f.handed ++ [c] } : Firmware).Good := by
  refine ⟨{ hf.bounds with },
    { hf.displayed with handed := ?_, printed := fun u d hd => ?_ }⟩
  · obtain ⟨ws, hws, hdecode⟩ := hf.displayed.handed
    obtain ⟨w, hw, -, hcut, hread⟩ := hf.displayed.called c (hk.printed t c hc)
    have hcurrent : w = f.tx.current :=
      Option.some.inj (hw.symm.trans (hf.displayed.printed t c hc))
    rw [hcurrent] at hcut hread
    -- the bytes so far end with a frame, so this one is cut by itself
    refine ⟨ws ++ [f.tx.current], ?_, ?_⟩
    · show Delimiter.segments frameMark 0 (f.bytes ++ f.tx.current) = _
      rw [Delimiter.segments_append (by decide), hws, List.nil_append, hcut]
    · rw [List.map_append, List.map_append, hdecode, List.map_singleton, hread]
      rfl
  · rcases of_printed_update hd with hd | hd
    · cases hd
    · exact hf.displayed.printed u d hd

/-! ## §5. One step. -/

theorem kept_init (pressure_value : List UInt8) : (init pressure_value).Kept := by
  refine ⟨rfl, fun t c hc => ?_, fun t c hc => by cases hc⟩
  cases t with
  | app_main =>
      have h : c ∈ commandsOf (check_status_afer_seset.map .send) := mem_commandsOf.mpr hc
      rwa [commandsOf_sends] at h
  | stone_cmd | timer_handle | pressure_read => cases hc

theorem good_init (pressure_value : List UInt8) : (init pressure_value).Good :=
  ⟨⟨rfl, fun text htext => absurd rfl ((routine_main _ htext).2 text), List.forall_mem_nil _,
      List.forall_mem_nil _, List.forall_mem_nil _, List.forall_mem_nil _⟩,
    ⟨⟨[], rfl, rfl⟩, fun _ _ hc => absurd hc (by simp [init]),
      fun c hc => (routine_main c hc).1.reads, List.forall_mem_nil _⟩⟩

theorem kept_assign {f : Firmware} (hk : f.Kept) (t : Task) (es : List Effect) :
    (f.assign t es).Kept := by
  refine ⟨hk.file, fun u c hc => ?_, fun u c hc => List.mem_append_left _ (hk.printed u c hc)⟩
  rcases of_todo_update hc with hc | hc
  · rcases List.mem_append.mp hc with hc | hc
    · exact List.mem_append_right _ (mem_commandsOf.mpr hc)
    · exact List.mem_append_left _ (hk.todo t c hc)
  · exact List.mem_append_left _ (hk.todo u c hc)

theorem kept_print {f : Firmware} (hk : f.Kept) (t : Task) {c : Command} (hc : c ∈ f.called) :
    (f.print t c).Kept := by
  unfold print
  split
  · exact hk
  · split
    · refine { hk with printed := fun u d hd => ?_ }
      rcases of_printed_update hd with hd | hd
      · exact Option.some.inj hd ▸ hc
      · exact hk.printed u d hd
    · exact { hk with }

theorem kept_perform {f : Firmware} (hk : f.Kept) (t : Task) (now : Stamp) (stack : Fields)
    {e : Effect} (he : ∀ c, e = .send c → c ∈ f.called) : (f.perform t now stack e).Kept := by
  cases e with
  | send c => exact kept_print hk t (he c rfl)
  | save_history mode time =>
      refine { hk with file := ?_ }
      show StoneHMI.save_history none f.file now mode time = callsFile (f.saved ++ [_])
      unfold callsFile
      rw [hk.file, List.foldl_append]
      rfl
  | push_history =>
      obtain ⟨hfile, htodo, hprinted⟩ :=
        kept_assign hk t ((StoneHMI.push_history (some f.file) stack).map .send)
      exact ⟨hfile, htodo, hprinted⟩
  | settimeofday _ => exact hk

/-- The next call taken off the list. -/
theorem kept_next {f : Firmware} (hk : f.Kept) {t : Task} {e : Effect} {rest : List Effect}
    (hd : f.todo t = e :: rest) :
    ({ f with todo := Function.update f.todo t rest } : Firmware).Kept ∧
      ∀ c, e = .send c → c ∈ f.called := by
  refine ⟨{ hk with todo := fun u c hc => ?_ }, fun c hc => hk.todo t c ?_⟩
  · rcases of_todo_update hc with hc | hc
    · exact hk.todo t c (hd ▸ List.mem_cons_of_mem e hc)
    · exact hk.todo u c hc
  · rw [hd, hc]
    exact List.mem_cons_self

/-- **Step, what always holds.** -/
theorem kept_step {P : Platform} {f g : Firmware} {l : Work} (hk : f.Kept)
    (h : f.step P l = some g) : g.Kept := by
  have hsys : ∀ s : Sys, ({ f with sys := s } : Firmware).Kept :=
    fun _ => { hk with }
  obtain ⟨c, t, calls, s, -, -, rfl⟩ | ⟨s, -, rfl⟩ | ⟨s, -, rfl⟩ | ⟨-, rfl⟩ |
    ⟨r, -, rfl⟩ | ⟨t, now, stack, e, rest, -, -, hd, rfl⟩ | ⟨t, c, -, -, rfl⟩ | ⟨pressure_value, -, rfl⟩ :=
    step_cases h
  · exact kept_assign (hsys s) _ _
  · exact hsys s
  · exact kept_assign (hsys s) _ _
  · -- the array is not part of it
    exact { hk with }
  · exact kept_assign (f := f.measure r) { hk with } _ _
  · obtain ⟨hnext, he⟩ := kept_next hk hd
    exact kept_perform hnext t now stack he
  · refine { hk with printed := fun u d hd => ?_ }
    rcases of_printed_update hd with hd | hd
    · cases hd
    · exact hk.printed u d hd
  · have hinit := kept_init pressure_value
    refine ⟨hk.file, fun t c hc => List.mem_append_right _ (hinit.todo t c hc), fun t c hc => ?_⟩
    cases hc

/-- **An item** keeps the property exactly when it is safe. -/
theorem good_item_iff {P : Platform} (hP : P.PrintsDates) {f : Firmware} (hf : f.Good)
    {c : Contents} {t : Ctl} {calls : List Effect} (h : stone_cmd P c f.sys.ctl = .ok (t, calls))
    (s : Sys) :
    ({ f with sys := s }.assign .stone_cmd calls).Good ↔ f.Safe (.control (.item c)) := by
  have hgood := hf.withSys s
  obtain ⟨w, hw, ⟨hnone, -, rfl⟩ | ⟨hd, hsome, hrun⟩⟩ := stone_cmd_cases h
  · -- no branch, and nothing to call
    refine iff_of_true (good_assign hgood _ fun c hc => absurd hc List.not_mem_nil) fun hP01 => ?_
    rw [hw, Option.bind_some, hnone] at hP01
    cases hP01
  · have hhandler : c.widget.bind handlerOf = some hd := by
      rw [hw]
      exact hsome
    obtain ⟨rfl, hcalls⟩ | ⟨hne, hroutine⟩ := Handler.run_calls hP hrun
    · -- P01: the label's text is the mode
      have hlabel := arrives_label (by decide : NameLike (str "FREQ2"))
        (nameLike_decimal f.sys.ctl.mode.toNat) (length_mode f.sys.ctl.mode)
      have hdigits : (decimal f.sys.ctl.mode.toNat).length ≤ 2 ↔ f.sys.ctl.mode.toNat < 100 :=
        decimal_length_le_iff (by decide)
      have hsafe : f.Safe (.control (.item c)) ↔ f.sys.ctl.mode.toNat < 100 :=
        ⟨fun h => h hhandler, fun h _ => h⟩
      rw [good_assign_iff hgood, hcalls, hsafe, ← hdigits, ← Nat.lt_succ_iff]
      constructor
      · exact fun h => h.1 _ List.mem_cons_self
      · refine fun h => ⟨fun text htext => ?_, List.forall_mem_singleton.mpr hlabel.reads⟩
        rw [(Command.set_text.inj (List.mem_singleton.mp htext)).2.2.1]
        exact h
    · refine iff_of_true (good_assign hgood _ hroutine) fun hP01 => absurd ?_ hne
      rw [hhandler] at hP01
      exact Option.some.inj hP01

/-- **`strlen`** keeps the property exactly when the array holds an end. -/
theorem good_clear_iff {f : Firmware} (hf : f.Good) : f.clear.Good ↔ 0 ∈ f.pressure_value := by
  constructor
  · exact fun h => h.bounds.strlen _ (List.mem_append_right f.cleared List.mem_cons_self)
  · intro hzero
    refine ⟨{ hf.bounds with strlen := ?_ }, { hf.displayed with }⟩
    exact List.forall_mem_append.mpr ⟨hf.bounds.strlen, List.forall_mem_singleton.mpr hzero⟩

/-- The end of a round keeps it. -/
theorem good_measure {f : Firmware} (hf : f.Good) (r : SensorRound) :
    ((f.measure r).assign .pressure_read (r.labels.map .send)).Good := by
  have hgood : (f.measure r).Good := by
    refine ⟨{ hf.bounds with pressure_value := ?_ }, { hf.displayed with }⟩
    exact List.forall_mem_append.mpr ⟨hf.bounds.pressure_value,
      List.forall_mem_singleton.mpr r.length_text⟩
  refine good_assign hgood _ ?_
  rw [commandsOf_sends]
  exact r.routine

/-- **A call** keeps the property exactly when it is safe. -/
theorem good_call_iff {f : Firmware} (hk : f.Kept) (hf : f.Good) {t : Task} {e : Effect}
    {rest : List Effect} (ht : f.printed t = none) (hd : f.todo t = e :: rest) (now : Stamp)
    (stack : Fields) :
    ({ f with todo := Function.update f.todo t rest }.perform t now stack e).Good ↔
      f.Safe (.call t now stack) := by
  obtain ⟨hnext, hcalled⟩ := kept_next hk hd
  have hgood : ({ f with todo := Function.update f.todo t rest } : Firmware).Good :=
    ⟨{ hf.bounds with }, { hf.displayed with }⟩
  unfold Safe
  simp only [hd]
  cases e with
  | send c => exact good_print_iff hnext hgood ht (hcalled c rfl)
  | save_history mode time => exact good_save_iff hgood t now stack mode time
  | push_history => exact good_upload_iff hnext hgood t now stack
  | settimeofday _ => exact iff_of_true hgood trivial

theorem good_reset {f : Firmware} (hf : f.Good) (pressure_value : List UInt8) :
    (f.reset pressure_value).Good := by
  refine ⟨{ hf.bounds with t := fun text htext => ?_ },
    { hf.displayed with printed := fun _ _ hc => ?_, called := fun c hc => ?_ }⟩
  · rcases List.mem_append.mp htext with htext | htext
    · exact hf.bounds.t text htext
    · exact absurd rfl ((routine_main _ htext).2 text)
  · cases hc
  · rcases List.mem_append.mp hc with hc | hc
    · exact hf.displayed.called c hc
    · exact (routine_main c hc).1.reads

/-- **Step.** -/
theorem good_step_iff {P : Platform} (hP : P.PrintsDates) {f g : Firmware} {l : Work}
    (hk : f.Kept) (hf : f.Good) (h : f.step P l = some g) : g.Good ↔ f.Safe l := by
  obtain ⟨c, t, calls, s, rfl, hcmd, rfl⟩ | ⟨s, rfl, rfl⟩ | ⟨s, rfl, rfl⟩ | ⟨rfl, rfl⟩ |
    ⟨r, rfl, rfl⟩ | ⟨t, now, stack, e, rest, rfl, ht, hd, rfl⟩ | ⟨t, c, rfl, hc, rfl⟩ |
    ⟨pressure_value, rfl, rfl⟩ := step_cases h
  · exact good_item_iff hP hf hcmd s
  · exact iff_of_true (hf.withSys s) trivial
  · exact iff_of_true (good_assign (hf.withSys s) _ (routine_timer_handle _)) trivial
  · exact good_clear_iff hf
  · exact iff_of_true (good_measure hf r) trivial
  · exact good_call_iff hk hf ht hd now stack
  · exact iff_of_true (good_handOver hk hf hc) trivial
  · exact iff_of_true (good_reset hf pressure_value) trivial

end Firmware

/-! ## §6. Whole runs. -/

/-- A platform that knows one time. -/
def oneTimePlatform : Platform :=
  { deafPlatform with
    strptime := fun s => if s = str "2024-12-24 18:00:00" then some ⟨124, 11, 24, 18, 0, 0⟩ else none
    mktime := fun _ => 1735063200
    settimeofday := fun _ => true
    strftime := fun _ => str "2024-12-24 18:00:00" }

/-- A hundred shots of one pressure. -/
def firstRound : SensorRound where
  shots := List.replicate 100 (pressureReading 0x07 0x47 0x9c)
  returned := fun r hr => by
    rw [List.eq_of_mem_replicate hr]
    exact returns_pressureReading _ _ _
  enough := by decide +kernel

/-- `app_main` asks for the date while a time is typed; the clock is set while the sensor makes
its round; then the percentage is shown. -/
def firstSteps : List Work :=
  [.call .app_main someStamp ⟨[], [], [], []⟩,
    .control (.item ⟨some (str "user_time_edit"), 0, some (str "2024-12-24 18:00:00")⟩),
    .handOver .app_main, .clear, .call .stone_cmd someStamp ⟨[], [], [], []⟩,
    .measure firstRound, .call .stone_cmd someStamp ⟨[], [], [], []⟩, .handOver .stone_cmd,
    .call .pressure_read someStamp ⟨[], [], [], []⟩, .handOver .pressure_read]

end StoneHMI
