/-
  StoneHMI.Lib.Json
  ─────────────────
  **JSON, READ BYTE BY BYTE — a library of its own.**

  A parser for JSON texts as one step function over bytes: what it waits for
  (`Mode`) and the arrays and objects that are still open (`Frame`).  A step
  that returns `none` rejects the text.  Strings keep their bytes as they
  stand, escapes included, and numbers their digits.

    §1  values and numbers        §3  running over a piece of text
    §2  the parser                §4  texts of values

  `Spells w v` says that the bytes `w` are read as the value `v` wherever a
  value may stand; `parse_object` reads a whole object from such members.
-/
import StoneHMI.Lib.CText

namespace Json

open CText

/-! ## §1. Values and numbers. -/

/-- A JSON value. -/
inductive Value where
  | null
  | bool (b : Bool)
  | num (digits : List UInt8)
  | str (s : List UInt8)
  | arr (items : List Value)
  | obj (members : List (List UInt8 × Value))

/-- The value of a member. -/
def member (key : List UInt8) (members : List (List UInt8 × Value)) : Option Value :=
  (members.find? fun m => m.1 == key).map Prod.snd

/-- How far a number has been read. -/
inductive NumMode where
  | start | minus | zero | int | point | fraction | exponent | exponentSign | exponentDigits
  deriving DecidableEq, Repr

/-- `-? (0 | [1-9][0-9]*) (. [0-9]+)? ([eE] [+-]? [0-9]+)?` -/
def NumMode.step : NumMode → UInt8 → Option NumMode
  | .start, b =>
      if b = 0x2d then some .minus
      else if b = 0x30 then some .zero else if isDigit b then some .int else none
  | .minus, b => if b = 0x30 then some .zero else if isDigit b then some .int else none
  | .zero, b =>
      if b = 0x2e then some .point else if b = 0x65 ∨ b = 0x45 then some .exponent else none
  | .int, b =>
      if isDigit b then some .int
      else if b = 0x2e then some .point else if b = 0x65 ∨ b = 0x45 then some .exponent else none
  | .point, b => if isDigit b then some .fraction else none
  | .fraction, b =>
      if isDigit b then some .fraction
      else if b = 0x65 ∨ b = 0x45 then some .exponent else none
  | .exponent, b =>
      if b = 0x2b ∨ b = 0x2d then some .exponentSign
      else if isDigit b then some .exponentDigits else none
  | .exponentSign, b => if isDigit b then some .exponentDigits else none
  | .exponentDigits, b => if isDigit b then some .exponentDigits else none

/-- A number may end here. -/
def NumMode.accepting : NumMode → Bool
  | .zero | .int | .fraction | .exponentDigits => true
  | _ => false

/-- The bytes from one place of a number to another. -/
def NumMode.run : NumMode → List UInt8 → Option NumMode
  | n, [] => some n
  | n, b :: s => (n.step b).bind fun n => n.run s

/-- A JSON number. -/
def isNumber (s : List UInt8) : Bool := (NumMode.start.run s).any NumMode.accepting

theorem NumMode.run_digits {s : List UInt8} (h : ∀ b ∈ s, isDigit b = true) :
    NumMode.int.run s = some .int := by
  induction s with
  | nil => rfl
  | cons b s ih =>
      have hstep : NumMode.int.step b = some .int := if_pos (h b List.mem_cons_self)
      show (NumMode.int.step b).bind _ = _
      rw [hstep]
      exact ih fun c hc => h c (List.mem_cons_of_mem b hc)

/-- A number printed in decimal is a JSON number. -/
theorem isNumber_decimal (n : ℕ) : isNumber (decimal n) = true := by
  by_cases hn : n = 0
  · subst hn
    decide
  · obtain ⟨d, ds, hd, hd0⟩ := decimal_head n (Nat.pos_of_ne_zero hn)
    have hdigit : ∀ b ∈ d :: ds, isDigit b = true := fun b hb =>
      isDigit_of_mem_decimal (n := n) (hd ▸ hb)
    have hfirst := hdigit d List.mem_cons_self
    have hminus : d ≠ 0x2d := by
      rintro rfl
      exact absurd hfirst (by decide)
    have hstep : NumMode.start.step d = some .int := by
      show (if d = 0x2d then _ else if d = 0x30 then _ else if isDigit d then _ else _) = _
      rw [if_neg hminus, if_neg hd0, if_pos hfirst]
    unfold isNumber
    rw [hd]
    show ((NumMode.start.step d).bind _).any _ = _
    rw [hstep]
    show (NumMode.int.run ds).any _ = _
    rw [NumMode.run_digits fun b hb => hdigit b (List.mem_cons_of_mem d hb)]
    rfl

/-! ## §2. The parser. -/

/-- An array or object that is still open: what it holds so far, and the key whose value
comes next. -/
inductive Frame where
  | arr (items : List Value)
  | obj (members : List (List UInt8 × Value)) (key : List UInt8)

/-- What may come next. -/
inductive Mode where
  /-- A value. -/
  | value
  /-- A value, or the end of an empty array. -/
  | items
  /-- A key, or the end of an empty object. -/
  | members
  /-- A key. -/
  | key
  /-- The colon behind a key. -/
  | colon
  /-- A comma, or the end of what is open. -/
  | more
  /-- The rest of a string, which is a key or a value. -/
  | string (isKey : Bool) (s : List UInt8)
  /-- The byte behind a backslash. -/
  | escape (isKey : Bool) (s : List UInt8)
  /-- `n + 1` hexadecimal digits of an escape. -/
  | hex (n : ℕ) (isKey : Bool) (s : List UInt8)
  /-- The rest of a number. -/
  | number (n : NumMode) (s : List UInt8)
  /-- The rest of a word. -/
  | word (rest : List UInt8) (v : Value)
  /-- Nothing: the value is complete. -/
  | done (v : Value)

structure State where
  mode : Mode
  stack : List Frame

/-- Space, tab, newline and carriage return. -/
def isSpace (b : UInt8) : Bool := b == 0x20 || b == 0x09 || b == 0x0a || b == 0x0d

def isHex (b : UInt8) : Bool := isDigit b || (0x41 ≤ b && b ≤ 0x46) || (0x61 ≤ b && b ≤ 0x66)

/-- The value takes its place in what is open. -/
def Frame.push (v : Value) : Frame → Frame
  | .arr vs => .arr (vs ++ [v])
  | .obj ms k => .obj (ms ++ [(k, v)]) k

/-- A value is complete. -/
def deliver (v : Value) : List Frame → State
  | [] => ⟨.done v, []⟩
  | f :: st => ⟨.more, f.push v :: st⟩

/-- The first byte of a value. -/
def startValue (b : UInt8) (st : List Frame) : Option State :=
  if b = 0x22 then some ⟨.string false [], st⟩
  else if b = 0x7b then some ⟨.members, .obj [] [] :: st⟩
  else if b = 0x5b then some ⟨.items, .arr [] :: st⟩
  else if b = 0x74 then some ⟨.word (str "rue") (.bool true), st⟩
  else if b = 0x66 then some ⟨.word (str "alse") (.bool false), st⟩
  else if b = 0x6e then some ⟨.word (str "ull") .null, st⟩
  else (NumMode.start.step b).map fun n => ⟨.number n [b], st⟩

/-- The quote that ends a string. -/
def endString (isKey : Bool) (s : List UInt8) : List Frame → Option State
  | .obj ms k :: st => if isKey then some ⟨.colon, .obj ms s :: st⟩
      else some (deliver (.str s) (.obj ms k :: st))
  | st => if isKey then none else some (deliver (.str s) st)

/-- A byte behind a value inside an array or object. -/
def stepMore (b : UInt8) : List Frame → Option State
  | .arr vs :: st =>
      if b = 0x2c then some ⟨.value, .arr vs :: st⟩
      else if b = 0x5d then some (deliver (.arr vs) st) else none
  | .obj ms k :: st =>
      if b = 0x2c then some ⟨.key, .obj ms k :: st⟩
      else if b = 0x7d then some (deliver (.obj ms) st) else none
  | [] => none

/-- The byte behind a number. -/
def stepBehind (b : UInt8) (s : State) : Option State :=
  if isSpace b then some s
  else match s.mode with
    | .more => stepMore b s.stack
    | _ => none

/-- The parser's step. -/
def step (s : State) (b : UInt8) : Option State :=
  match s.mode with
  | .value => if isSpace b then some s else startValue b s.stack
  | .items =>
      if isSpace b then some s
      else if b = 0x5d then stepMore b s.stack else startValue b s.stack
  | .members =>
      if isSpace b then some s
      else if b = 0x7d then stepMore b s.stack
      else if b = 0x22 then some ⟨.string true [], s.stack⟩ else none
  | .key =>
      if isSpace b then some s
      else if b = 0x22 then some ⟨.string true [], s.stack⟩ else none
  | .colon =>
      if isSpace b then some s else if b = 0x3a then some ⟨.value, s.stack⟩ else none
  | .more => stepBehind b s
  | .done _ => stepBehind b s
  | .string isKey t =>
      if b = 0x22 then endString isKey t s.stack
      else if b = 0x5c then some ⟨.escape isKey t, s.stack⟩
      else if b < 0x20 then none else some ⟨.string isKey (t ++ [b]), s.stack⟩
  | .escape isKey t =>
      if b = 0x75 then some ⟨.hex 3 isKey (t ++ [0x5c, b]), s.stack⟩
      else if b ∈ str "\"\\/bfnrt" then some ⟨.string isKey (t ++ [0x5c, b]), s.stack⟩ else none
  | .hex n isKey t =>
      if isHex b then
        match n with
        | 0 => some ⟨.string isKey (t ++ [b]), s.stack⟩
        | n + 1 => some ⟨.hex n isKey (t ++ [b]), s.stack⟩
      else none
  | .number n t =>
      match n.step b with
      | some n => some ⟨.number n (t ++ [b]), s.stack⟩
      | none => if n.accepting then stepBehind b (deliver (.num t) s.stack) else none
  | .word rest v =>
      match rest with
      | [] => none
      | c :: rest =>
          if b ≠ c then none
          else if rest = [] then some (deliver v s.stack) else some ⟨.word rest v, s.stack⟩

/-- The parser over a piece of text. -/
def run : State → List UInt8 → Option State
  | s, [] => some s
  | s, b :: w => (step s b).bind fun s => run s w

/-- The value, if the text may end here. -/
def finish (s : State) : Option Value :=
  match s.mode, s.stack with
  | .done v, [] => some v
  | .number n t, [] => if n.accepting then some (.num t) else none
  | _, _ => none

/-- The value of a JSON text. -/
def parse (w : List UInt8) : Option Value := (run ⟨.value, []⟩ w).bind finish

/-! ## §3. Running over a piece of text. -/

/-- A byte that stands for itself in a string. -/
def PlainByte (b : UInt8) : Prop := ¬ b < 0x20 ∧ b ≠ 0x22 ∧ b ≠ 0x5c

instance (b : UInt8) : Decidable (PlainByte b) :=
  inferInstanceAs (Decidable (¬ b < 0x20 ∧ b ≠ 0x22 ∧ b ≠ 0x5c))

/-- A string without quotes, backslashes and control characters. -/
def Plain (s : List UInt8) : Prop := ∀ b ∈ s, PlainByte b

instance (s : List UInt8) : Decidable (Plain s) := List.decidableBAll PlainByte s

theorem plainByte_digit {b : UInt8} (h : isDigit b = true) : PlainByte b := by
  obtain ⟨hlo, hhi⟩ := isDigit_iff.mp h
  refine ⟨?_, ne_of_isDigit h (by decide), ?_⟩
  · rw [UInt8.lt_iff_toNat_lt]
    show ¬ b.toNat < 32
    omega
  · rintro rfl
    exact absurd hhi (by decide)

theorem plain_decimal (n : ℕ) : Plain (decimal n) := fun _ hb =>
  plainByte_digit (isDigit_of_mem_decimal hb)

theorem run_string (isKey : Bool) (st : List Frame) (w : List UInt8) :
    ∀ (t s : List UInt8), Plain t →
      run ⟨.string isKey s, st⟩ (t ++ w) = run ⟨.string isKey (s ++ t), st⟩ w
  | [], s, _ => by rw [List.append_nil]; rfl
  | b :: t, s, ht => by
      obtain ⟨hctl, hquote, hback⟩ := ht b List.mem_cons_self
      have hstep : step ⟨.string isKey s, st⟩ b = some ⟨.string isKey (s ++ [b]), st⟩ := by
        simp only [step, if_neg hquote, if_neg hback, if_neg hctl]
      show (step _ b).bind _ = _
      rw [hstep]
      show run ⟨.string isKey (s ++ [b]), st⟩ (t ++ w) = _
      rw [run_string isKey st w t _ (fun c hc => ht c (List.mem_cons_of_mem b hc)),
        List.append_assoc, List.singleton_append]

/-- A string in quotes. -/
def quote (s : List UInt8) : List UInt8 := 0x22 :: (s ++ [0x22])

theorem mem_quote {b : UInt8} {s : List UInt8} (h : b ∈ quote s) : b = 0x22 ∨ b ∈ s := by
  unfold quote at h
  rw [List.mem_cons, List.mem_append, List.mem_singleton] at h
  obtain h | h | h := h
  · exact Or.inl h
  · exact Or.inr h
  · exact Or.inl h

theorem run_key {m : Mode} {ms : List (List UInt8 × Value)} {k₀ k : List UInt8} {st : List Frame}
    (hm : m = .members ∨ m = .key) (hk : Plain k) (w : List UInt8) :
    run ⟨m, .obj ms k₀ :: st⟩ (quote k ++ 0x3a :: w) = run ⟨.value, .obj ms k :: st⟩ w := by
  have hopen : run ⟨m, .obj ms k₀ :: st⟩ (quote k ++ 0x3a :: w)
      = run ⟨.string true [], .obj ms k₀ :: st⟩ (k ++ 0x22 :: 0x3a :: w) := by
    unfold quote
    rw [List.cons_append, List.append_assoc, List.singleton_append]
    rcases hm with rfl | rfl <;> rfl
  rw [hopen, run_string _ _ _ k [] hk]
  rfl

theorem run_number (st : List Frame) (w : List UInt8) :
    ∀ (t s : List UInt8) (n n' : NumMode), n.run t = some n' →
      run ⟨.number n s, st⟩ (t ++ w) = run ⟨.number n' (s ++ t), st⟩ w
  | [], s, n, n', h => by
      cases h
      rw [List.append_nil]
      rfl
  | b :: t, s, n, n', h => by
      obtain ⟨n₁, hn₁, h⟩ := Option.bind_eq_some_iff.mp h
      have hstep : step ⟨.number n s, st⟩ b = some ⟨.number n₁ (s ++ [b]), st⟩ := by
        simp only [step, hn₁]
      show (step _ b).bind _ = _
      rw [hstep]
      show run ⟨.number n₁ (s ++ [b]), st⟩ (t ++ w) = _
      rw [run_number st w t _ n₁ n' h, List.append_assoc, List.singleton_append]

/-! ## §4. Texts of values. -/

/-- A comma, or the end of an array or object. -/
def Closes (b : UInt8) : Prop := b = 0x2c ∨ b = 0x5d ∨ b = 0x7d

/-- Wherever a value may stand inside an array or object, `w` is read as `v`. -/
def Spells (w : List UInt8) (v : Value) : Prop :=
  ∀ (m : Mode) (f : Frame) (st : List Frame) (b : UInt8) (rest : List UInt8),
    m = .value ∨ m = .items → Closes b →
      run ⟨m, f :: st⟩ (w ++ b :: rest) = run ⟨.more, f.push v :: st⟩ (b :: rest)

theorem spells_quote {s : List UInt8} (hs : Plain s) : Spells (quote s) (.str s) := by
  intro m f st b rest hm _
  have hopen : run ⟨m, f :: st⟩ (quote s ++ b :: rest)
      = run ⟨.string false [], f :: st⟩ (s ++ 0x22 :: b :: rest) := by
    unfold quote
    rw [List.cons_append, List.append_assoc, List.singleton_append]
    rcases hm with rfl | rfl <;> rfl
  rw [hopen, run_string _ _ _ s [] hs]
  cases f <;> rfl

theorem spells_bool (b : Bool) :
    Spells (str (if b then "true" else "false")) (.bool b) := by
  intro m f st c rest hm _
  cases b <;> rcases hm with rfl | rfl <;> rfl

/-- No number goes on with a comma or a bracket. -/
theorem NumMode.step_closes (n : NumMode) {b : UInt8} (hb : Closes b) : n.step b = none := by
  rcases hb with rfl | rfl | rfl <;> cases n <;> rfl

theorem startValue_number {b : UInt8} {n : NumMode} (h : NumMode.start.step b = some n)
    (st : List Frame) :
    isSpace b = false ∧ b ≠ 0x5d ∧ startValue b st = some ⟨.number n [b], st⟩ := by
  have hne : ∀ c : UInt8, NumMode.start.step c = none → b ≠ c := by
    rintro c hc rfl
    rw [hc] at h
    cases h
  refine ⟨?_, hne _ rfl, ?_⟩
  · simp [isSpace, hne 0x20 rfl, hne 0x09 rfl, hne 0x0a rfl, hne 0x0d rfl]
  · unfold startValue
    rw [if_neg (hne _ rfl), if_neg (hne _ rfl), if_neg (hne _ rfl), if_neg (hne _ rfl),
      if_neg (hne _ rfl), if_neg (hne _ rfl), h]
    rfl

theorem spells_number {s : List UInt8} (hs : isNumber s = true) : Spells s (.num s) := by
  intro m f st c rest hm hc
  unfold isNumber at hs
  obtain ⟨n, hn, hacc⟩ : ∃ n, NumMode.start.run s = some n ∧ n.accepting = true := by
    cases hrun : NumMode.start.run s with
    | none =>
        rw [hrun] at hs
        cases hs
    | some n =>
        rw [hrun] at hs
        exact ⟨n, rfl, hs⟩
  cases s with
  | nil =>
      cases hn
      cases hacc
  | cons b t =>
      obtain ⟨n₁, hn₁, hrun⟩ := Option.bind_eq_some_iff.mp hn
      obtain ⟨hspace, hclose, hstart⟩ := startValue_number hn₁ (f :: st)
      have hstep : step ⟨m, f :: st⟩ b = some ⟨.number n₁ [b], f :: st⟩ := by
        rcases hm with rfl | rfl <;> simp [step, hspace, hclose, hstart]
      have hend : step ⟨.number n ([b] ++ t), f :: st⟩ c
          = step ⟨.more, f.push (.num ([b] ++ t)) :: st⟩ c := by
        simp only [step, NumMode.step_closes n hc, hacc]
        rfl
      show (step _ b).bind _ = _
      rw [hstep]
      show run ⟨.number n₁ [b], f :: st⟩ (t ++ c :: rest) = _
      rw [run_number _ _ t _ n₁ n hrun]
      show (step _ c).bind _ = (step _ c).bind _
      rw [hend]
      rfl

/-- Texts with commas between them. -/
def commaList : List (List UInt8) → List UInt8
  | [] => []
  | w :: ws => w ++ (ws.map fun w => 0x2c :: w).flatten

theorem mem_commaList {b : UInt8} {ws : List (List UInt8)} (h : b ∈ commaList ws) :
    b = 0x2c ∨ ∃ w ∈ ws, b ∈ w := by
  cases ws with
  | nil => cases h
  | cons w ws =>
      rw [commaList, List.mem_append, List.mem_flatten] at h
      obtain h | ⟨x, hx, h⟩ := h
      · exact Or.inr ⟨w, List.mem_cons_self, h⟩
      · obtain ⟨y, hy, rfl⟩ := List.mem_map.mp hx
        obtain rfl | h := List.mem_cons.mp h
        · exact Or.inl rfl
        · exact Or.inr ⟨y, List.mem_cons_of_mem w hy, h⟩

/-- Behind a text of a list stands a comma or the end of the list. -/
theorem exists_closes (ws : List (List UInt8)) {b : UInt8} (hb : Closes b) (rest : List UInt8) :
    ∃ c r, (ws.map fun w => 0x2c :: w).flatten ++ b :: rest = c :: r ∧ Closes c := by
  cases ws with
  | nil => exact ⟨b, rest, rfl, hb⟩
  | cons w ws =>
      refine ⟨0x2c, w ++ ((ws.map fun w => 0x2c :: w).flatten ++ b :: rest), ?_, Or.inl rfl⟩
      rw [List.map_cons, List.flatten_cons, List.cons_append, List.cons_append, List.append_assoc]

/-- The texts of plain strings. -/
theorem run_moreStrings (st : List Frame) (rest : List UInt8) :
    ∀ (ss : List (List UInt8)) (vs : List Value), (∀ s ∈ ss, Plain s) →
      run ⟨.more, .arr vs :: st⟩ (((ss.map quote).map fun w => 0x2c :: w).flatten ++ 0x5d :: rest)
        = run (deliver (.arr (vs ++ ss.map .str)) st) rest
  | [], vs, _ => by
      rw [List.map_nil, List.map_nil, List.map_nil, List.append_nil]
      rfl
  | s :: ss, vs, hss => by
      obtain ⟨c, r, hcr, hc⟩ := exists_closes (ss.map quote) (b := 0x5d) (Or.inr (Or.inl rfl)) rest
      have hs := spells_quote (hss s List.mem_cons_self) .value (.arr vs) st c r (Or.inl rfl) hc
      rw [List.map_cons, List.map_cons, List.flatten_cons, List.cons_append, List.cons_append,
        List.append_assoc, hcr]
      show run ⟨.value, .arr vs :: st⟩ (quote s ++ c :: r) = _
      rw [hs, ← hcr]
      show run ⟨.more, .arr (vs ++ [.str s]) :: st⟩ _ = _
      rw [run_moreStrings st rest ss _ fun t ht => hss t (List.mem_cons_of_mem s ht),
        List.append_assoc, List.singleton_append, List.map_cons]

/-- An array of plain strings. -/
def stringArray (ss : List (List UInt8)) : List UInt8 :=
  0x5b :: (commaList (ss.map quote) ++ [0x5d])

/-- What an array of strings consists of. -/
theorem mem_stringArray {b : UInt8} {ss : List (List UInt8)} (h : b ∈ stringArray ss) :
    b ∈ str "[],\"" ∨ ∃ s ∈ ss, b ∈ s := by
  unfold stringArray at h
  rw [List.mem_cons, List.mem_append, List.mem_singleton] at h
  obtain rfl | h | rfl := h
  · exact Or.inl (by decide)
  · obtain rfl | ⟨w, hw, h⟩ := mem_commaList h
    · exact Or.inl (by decide)
    · obtain ⟨s, hs, rfl⟩ := List.mem_map.mp hw
      obtain rfl | h := mem_quote h
      · exact Or.inl (by decide)
      · exact Or.inr ⟨s, hs, h⟩
  · exact Or.inl (by decide)

theorem mem_stringArray_of_mem {b : UInt8} {s : List UInt8} {ss : List (List UInt8)} (hs : s ∈ ss)
    (hb : b ∈ s) : b ∈ stringArray ss := by
  have hq : ∀ t : List UInt8, b ∈ t → b ∈ quote t := fun t ht => by simp [quote, ht]
  unfold stringArray
  refine List.mem_cons_of_mem _ (List.mem_append_left _ ?_)
  cases ss with
  | nil => simp at hs
  | cons t ss =>
      rw [List.map_cons, commaList, List.mem_append, List.mem_flatten]
      rcases List.mem_cons.mp hs with rfl | hs
      · exact Or.inl (hq s hb)
      · exact Or.inr ⟨_, List.mem_map_of_mem (List.mem_map_of_mem hs),
          List.mem_cons_of_mem _ (hq s hb)⟩

theorem spells_stringArray {ss : List (List UInt8)} (hss : ∀ s ∈ ss, Plain s) :
    Spells (stringArray ss) (.arr (ss.map .str)) := by
  intro m f st b rest hm _
  have hopen : run ⟨m, f :: st⟩ (stringArray ss ++ b :: rest)
      = run ⟨.items, .arr [] :: f :: st⟩ (commaList (ss.map quote) ++ 0x5d :: b :: rest) := by
    unfold stringArray
    rw [List.cons_append, List.append_assoc, List.singleton_append]
    rcases hm with rfl | rfl <;> rfl
  rw [hopen]
  cases ss with
  | nil => rfl
  | cons s ss =>
      obtain ⟨c, r, hcr, hc⟩ :=
        exists_closes (ss.map quote) (b := 0x5d) (Or.inr (Or.inl rfl)) (b :: rest)
      have hs := spells_quote (hss s List.mem_cons_self) .items (.arr []) (f :: st) c r
        (Or.inr rfl) hc
      rw [List.map_cons, commaList, List.append_assoc, hcr, hs, ← hcr]
      exact run_moreStrings _ _ ss [.str s] fun t ht => hss t (List.mem_cons_of_mem s ht)

/-- A member of an object: its key, and a text of its value. -/
structure Field where
  key : List UInt8
  text : List UInt8
  value : Value
  plain : Plain key
  spells : Spells text value

def Field.bytes (f : Field) : List UInt8 := quote f.key ++ 0x3a :: f.text

def Field.pair (f : Field) : List UInt8 × Value := (f.key, f.value)

theorem run_field {m : Mode} (f : Field) {ms : List (List UInt8 × Value)} {k : List UInt8}
    {st : List Frame} (hm : m = .members ∨ m = .key) {b : UInt8} (hb : Closes b)
    (rest : List UInt8) :
    run ⟨m, .obj ms k :: st⟩ (f.bytes ++ b :: rest)
      = run ⟨.more, .obj (ms ++ [f.pair]) f.key :: st⟩ (b :: rest) := by
  unfold Field.bytes
  rw [List.append_assoc, List.cons_append, run_key hm f.plain]
  exact f.spells .value (.obj ms f.key) st b rest (Or.inl rfl) hb

/-- Members, up to a comma or the end of the object. -/
theorem run_moreFields (st : List Frame) {b : UInt8} (hb : Closes b) (rest : List UInt8) :
    ∀ (fs : List Field) (ms : List (List UInt8 × Value)) (k : List UInt8), ∃ k',
      run ⟨.more, .obj ms k :: st⟩
          (((fs.map Field.bytes).map fun w => 0x2c :: w).flatten ++ b :: rest)
        = run ⟨.more, .obj (ms ++ fs.map Field.pair) k' :: st⟩ (b :: rest)
  | [], ms, k => ⟨k, by
      rw [List.map_nil, List.map_nil, List.map_nil, List.append_nil]
      rfl⟩
  | f :: fs, ms, k => by
      obtain ⟨c, r, hcr, hc⟩ := exists_closes (fs.map Field.bytes) hb rest
      obtain ⟨k', hk'⟩ := run_moreFields st hb rest fs (ms ++ [f.pair]) f.key
      refine ⟨k', ?_⟩
      rw [List.map_cons, List.map_cons, List.flatten_cons, List.cons_append, List.cons_append,
        List.append_assoc, hcr]
      show run ⟨.key, .obj ms k :: st⟩ (f.bytes ++ c :: r) = _
      rw [run_field f (Or.inr rfl) hc, ← hcr, hk', List.append_assoc, List.singleton_append,
        List.map_cons]

/-- An object. -/
def object (fs : List Field) : List UInt8 := 0x7b :: (commaList (fs.map Field.bytes) ++ [0x7d])

/-- The members of an object are read up to a comma or its end. -/
theorem run_object {fs : List Field} (hne : fs ≠ []) {b : UInt8} (hb : Closes b)
    (rest : List UInt8) :
    ∃ k, run ⟨.value, []⟩ (0x7b :: (commaList (fs.map Field.bytes) ++ b :: rest))
      = run ⟨.more, [.obj (fs.map Field.pair) k]⟩ (b :: rest) := by
  cases fs with
  | nil => exact absurd rfl hne
  | cons f fs =>
      obtain ⟨c, r, hcr, hc⟩ := exists_closes (fs.map Field.bytes) hb rest
      obtain ⟨k, hk⟩ := run_moreFields [] hb rest fs [f.pair] f.key
      refine ⟨k, ?_⟩
      show run ⟨.members, [.obj [] []]⟩ _ = _
      rw [List.map_cons, commaList, List.append_assoc, hcr, run_field f (Or.inl rfl) hc, ← hcr]
      exact hk

/-- **An object's text is read as its members.** -/
theorem parse_object (fs : List Field) : parse (object fs) = some (.obj (fs.map Field.pair)) := by
  by_cases hne : fs = []
  · subst hne
    rfl
  · obtain ⟨k, hk⟩ := run_object hne (b := 0x7d) (Or.inr (Or.inr rfl)) []
    unfold parse object
    rw [hk]
    rfl

/-- What cannot be a member behind the comma spoils the text. -/
theorem parse_spoilt {fs : List Field} (hne : fs ≠ []) {junk : List UInt8}
    (h : ∀ ms k, run ⟨.more, [.obj ms k]⟩ (0x2c :: junk) = none) :
    parse (0x7b :: (commaList (fs.map Field.bytes) ++ 0x2c :: junk)) = none := by
  obtain ⟨k, hk⟩ := run_object hne (b := 0x2c) (Or.inl rfl) junk
  unfold parse
  rw [hk, h]
  rfl

end Json
