/-
  StoneHMI.History.Log
  ────────────────────
  **THE SESSION LOG — spiffs.c.**

  `save_history` prints one row `MM-DD-YYYY HH:MM:SS,period,mode,time` and
  `insert_text_at_first_line` rewrites the file with that row in front.
  `push_history` reads the file back with a line buffer of 30 bytes, takes
  each line apart with `sscanf`, and uploads five columns as five labels.

  The file is a list of bytes; `none` stands for a file that cannot be opened.
  A file operation that fails is an argument of `insert_text_at_first_line`.
-/
import StoneHMI.Lib.CText
import StoneHMI.Transport.Commands
import StoneHMI.Controller.OpenTime

namespace StoneHMI

open CText

/-! ## §1. Writing a row. -/

/-- A local date and time, each field in its range; month and day count from 0. -/
structure Stamp where
  month : Fin 12
  day : Fin 31
  year : Fin 10000
  hour : Fin 24
  minute : Fin 60
  second : Fin 62
  deriving DecidableEq, Repr

def twoDigits (n : ℕ) : List UInt8 := [UInt8.ofNat (48 + n / 10), UInt8.ofNat (48 + n % 10)]

/-- `strftime(…, "%m-%d-%Y %T", …)` -/
def Stamp.text (t : Stamp) : List UInt8 :=
  twoDigits (t.month + 1) ++ 0x2d :: (twoDigits (t.day + 1) ++ 0x2d ::
    (twoDigits (t.year / 100) ++ (twoDigits (t.year % 100) ++ 0x20 ::
      (twoDigits t.hour ++ 0x3a :: (twoDigits t.minute ++ 0x3a :: twoDigits t.second)))))

/-- The period that `save_history` logs for a mode. -/
def period (mode : UInt8) : ℕ :=
  if mode = 1 then 5
  else if mode = 2 then 10
  else if mode = 3 then 15
  else if mode = 4 then 20
  else if mode = 5 then 30
  else 1

/-- `buffer_time` after `strcat`: `"%m-%d-%Y %T,"` and `"%d,%d,%d"`. -/
def historyRow (t : Stamp) (mode : UInt8) (time : UInt16) : List UInt8 :=
  t.text ++ 0x2c :: (decimal (period mode) ++ 0x2c ::
    (decimal mode.toNat ++ 0x2c :: decimal time.toNat))

/-- Where `insert_text_at_first_line` can fail. -/
inductive InsertFault where
  | openRead
  | malloc
  | openWrite
  /-- Only the first `n` bytes reach the file. -/
  | write (n : ℕ)
  deriving DecidableEq, Repr

/-- The file after `insert_text_at_first_line(file, new_text)`. -/
def insert_text_at_first_line (fault : Option InsertFault) (file new_text : List UInt8) :
    List UInt8 :=
  -- the old contents pass through a C string
  let text := new_text ++ 0x0a :: cstr file
  match fault with
  | none => text
  | some .openRead => file
  | some .malloc => file
  | some .openWrite => file
  | some (.write n) => text.take n

/-- The file after `save_history(mode, time)` at the time `t`. -/
def save_history (fault : Option InsertFault) (file : List UInt8) (t : Stamp) (mode : UInt8)
    (time : UInt16) : List UInt8 :=
  insert_text_at_first_line fault file (historyRow t mode time)

/-! ## §2. Reading the rows back. -/

/-- `LOG_MAX` -/
def LOG_MAX : ℕ := 200

/-- `str1`, `str2`, `str3`, `str4`: whatever the stack holds, until they are scanned. -/
structure Fields where
  str1 : List UInt8
  str2 : List UInt8
  str3 : List UInt8
  str4 : List UInt8
  deriving DecidableEq, Repr

def isComma (b : UInt8) : Bool := b == 0x2c

/-- A `,` of the format. -/
def scanComma : List UInt8 → Option (List UInt8)
  | [] => none
  | b :: s => if isComma b then some s else none

/-- `sscanf(line, "%[^,],%[^,],%[^,],%s", str1, str2, str3, str4)`: a conversion
that fails leaves its buffer and all later ones as they were. -/
def sscanfRow (line : List UInt8) (f : Fields) : Fields :=
  match scanset isComma line with
  | none => f
  | some (s1, r1) =>
    let f := { f with str1 := s1 }
    match (scanComma r1).bind (scanset isComma) with
    | none => f
    | some (s2, r2) =>
      let f := { f with str2 := s2 }
      match (scanComma r2).bind (scanset isComma) with
      | none => f
      | some (s3, r3) =>
        let f := { f with str3 := s3 }
        match (scanComma r3).bind scanWord with
        | none => f
        | some (s4, _) => { f with str4 := s4 }

/-- `push_history`'s locals: the scanned fields, `line_count`, and the five
columns as C strings. -/
structure Upload where
  fields : Fields
  line_count : ℕ
  array_res_1 : List UInt8
  array_res_2 : List UInt8
  array_res_3 : List UInt8
  array_res_4 : List UInt8
  array_res_5 : List UInt8
  deriving DecidableEq, Repr

/-- Each column starts as `"["`. -/
def Upload.start (stack : Fields) : Upload :=
  { fields := stack, line_count := 0, array_res_1 := [0x5b], array_res_2 := [0x5b],
    array_res_3 := [0x5b], array_res_4 := [0x5b], array_res_5 := [0x5b] }

/-- `"\"%s\","` -/
def columnEntry (s : List UInt8) : List UInt8 := quoted s ++ [0x2c]

/-- The five `sprintf`s of one turn. -/
def Upload.addRow (u : Upload) (f : Fields) : Upload :=
  { fields := f
    line_count := u.line_count + 1
    array_res_1 := u.array_res_1 ++ columnEntry (decimal (u.line_count + 1))
    array_res_2 := u.array_res_2 ++ columnEntry f.str1
    array_res_3 := u.array_res_3 ++ columnEntry f.str2
    array_res_4 := u.array_res_4 ++ columnEntry f.str3
    array_res_5 := u.array_res_5 ++ columnEntry f.str4 }

/-- `while (fgets(line, sizeof(line), f))`, with `char line[30]`; every turn
reads at least a byte, so as many turns as bytes are enough fuel. -/
def uploadLoop : ℕ → List UInt8 → Upload → Upload
  | 0, _, u => u
  | fuel + 1, f, u =>
      match fgets 30 f with
      | none => u
      | some (line, f) =>
          let u := u.addRow (sscanfRow (cstr line) u.fields)
          if u.line_count ≥ LOG_MAX then u else uploadLoop fuel f u

/-- `sprintf(array_res+strlen(array_res)-1, "]")` -/
def closeColumn (s : List UInt8) : List UInt8 := s.dropLast ++ [0x5d]

/-- `set_text("label", "lable<i>_copy1_200", array_res, 1)` -/
def columnLabel (i : ℕ) (column : List UInt8) : Command :=
  .set_text (str "label") (str "lable" ++ decimal i ++ str "_copy1_" ++ decimal LOG_MAX)
    column true

/-- The five labels that the columns go to. -/
def columnLabels (c1 c2 c3 c4 c5 : List UInt8) : List Command :=
  [columnLabel 1 c1, columnLabel 2 c2, columnLabel 3 c3, columnLabel 4 c4, columnLabel 5 c5]

/-- `push_history()`: the commands it sends. -/
def push_history (file : Option (List UInt8)) (stack : Fields) : List Command :=
  match file with
  | none => []
  | some f =>
      let u := uploadLoop f.length f (Upload.start stack)
      columnLabels (closeColumn u.array_res_1) (closeColumn u.array_res_2)
        (closeColumn u.array_res_3) (closeColumn u.array_res_4) (closeColumn u.array_res_5)

end StoneHMI
