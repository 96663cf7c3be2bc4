import Lexaire.Core.Base64
import Lexaire.Core.JsonRoundTrip
import Lexaire.Core.Lines

/-! The recording file: one JSON object a line. Python's strings are sequences of UTF-16
units, as in the JSON texts; what `int()` makes of floats and of strings is Python's. -/
namespace Lexaire.Replay
open JsonText

inductive Raised where
  | json (raised : JsonText.Raised)
  | unicodeDecodeError
  | keyError
  | valueError
  | typeError
  | overflowError
  deriving DecidableEq

structure Python (F : Type) where
  floats : FloatText F
  limits : Limits
  intOfFloat : F → Except Raised Int
  intOfText : Units → Except Raised Int

structure Record (F : Type) where
  channel : Value F
  tsNs : Int
  header : Value F
  payload : List UInt8

def str (s : String) : Units := s.toList.flatMap unitsOf

def encodeText (t : List Char) : ByteArray := (String.ofList t).toUTF8

def strOfAscii (t : List Char) : Units := t.map fun c => UInt16.ofNat c.toNat

section
variable {F : Type} (py : Python F)

def loads (t : List Char) : Except Raised (Value F) :=
  match JsonText.loads py.floats py.limits t with
  | .ok v => .ok v
  | .error e => .error (.json e)

def dumps (v : Value F) : Except Raised (List Char) :=
  match JsonText.dumps py.floats py.limits v with
  | .ok t => .ok t
  | .error e => .error (.json e)

/-- `obj[key]`; what is no dictionary cannot be subscripted with a string. -/
def subscript (key : String) : Value F → Except Raised (Value F)
  | .object members =>
    match members.lookup (str key) with
    | some v => .ok v
    | none => .error .keyError
  | _ => .error .typeError

/-- `int(v)`. -/
def int : Value F → Except Raised Int
  | .integer n => .ok n
  | .boolean b => .ok (if b then 1 else 0)
  | .number x => py.intOfFloat x
  | .string s => py.intOfText s
  | _ => .error .typeError

/-- `base64.b64decode(v)`. -/
def b64decode : Value F → Except Raised (List UInt8)
  | .string s =>
    if s.all (·.toNat < 128) then
      match Base64.decode (s.map fun u => Char.ofNat u.toNat) with
      | some bytes => .ok bytes
      | none => .error .valueError
    else .error .valueError
  | _ => .error .typeError

def Record.toObject (rec : Record F) : Value F :=
  .object [(str "channel", rec.channel), (str "ts_ns", .integer rec.tsNs),
    (str "header", rec.header), (str "payload", .string (strOfAscii (Base64.encode rec.payload)))]

def Record.toLine (rec : Record F) : Except Raised (List Char) := dumps py rec.toObject

def Record.fromObject (obj : Value F) : Except Raised (Record F) := do
  let channel ← subscript "channel" obj
  let tsNs ← subscript "ts_ns" obj
  let tsNs ← int py tsNs
  let header ← subscript "header" obj
  let payload ← subscript "payload" obj
  let payload ← b64decode payload
  return { channel, tsNs, header, payload }

def Record.fromLine (line : List Char) : Except Raised (Record F) := do
  let obj ← loads py line
  Record.fromObject py obj

/-- What `write` adds to the file. -/
def written (rec : Record F) : Except Raised (List Char) :=
  match rec.toLine py with
  | .error e => .error e
  | .ok line => .ok (line ++ ['\n'])

/-- `except (json.JSONDecodeError, KeyError, ValueError)`: a UnicodeDecodeError and an
integer of too many digits are ValueErrors too. -/
def skips : Raised → Bool
  | .json .decodeError | .json .valueError | .unicodeDecodeError | .keyError | .valueError => true
  | .json .recursionError | .typeError | .overflowError => false

def readLines : List (List Char) → Except Raised (List (Record F))
  | [] => .ok []
  | line :: rest =>
    let line := Lines.strip line
    if line = [] ∨ line.head? = some '#' then readLines rest
    else
      match Record.fromLine py line with
      | .ok rec => (readLines rest).map (rec :: ·)
      | .error e => if skips e then readLines rest else .error e

/-- `list(read_all(path))`. -/
def readAll (file : ByteArray) : Except Raised (List (Record F)) :=
  match String.fromUTF8? file with
  | none => .error .unicodeDecodeError
  | some t => readLines py (Lines.lines (Lines.translate t.toList))
end

/-! ## Lines back to records -/

theorem fromUTF8?_encodeText (t : List Char) :
    String.fromUTF8? (encodeText t) = some (String.ofList t) := by
  have valid : (encodeText t).IsValidUTF8 := String.isValidUTF8 (String.ofList t)
  rw [String.fromUTF8?, dif_pos valid]
  rfl

section
variable {F : Type} {py : Python F} {rec : Record F} {line : List Char}

/-- Base64 is ASCII: its units are its characters. -/
theorem units_encode (bytes : List UInt8) :
    (strOfAscii (Base64.encode bytes)).all (·.toNat < 128) = true ∧
      (strOfAscii (Base64.encode bytes)).map (fun u => Char.ofNat u.toNat) = Base64.encode bytes := by
  have ascii := Base64.encode_ascii bytes
  constructor
  · simp only [strOfAscii, List.all_map, List.all_eq_true, Function.comp_apply, decide_eq_true_eq]
    intro c member
    have small := ascii c member
    rw [UInt16.toNat_ofNat']
    omega
  · have back : ∀ c ∈ Base64.encode bytes, Char.ofNat (UInt16.ofNat c.toNat).toNat = id c := by
      intro c member
      have small := ascii c member
      rw [UInt16.toNat_ofNat', Nat.mod_eq_of_lt (by omega), Char.ofNat_toNat, id]
    rw [strOfAscii, List.map_map]
    exact (List.map_congr_left back).trans (List.map_id _)

theorem b64decode_encode (bytes : List UInt8) :
    b64decode (F := F) (.string (strOfAscii (Base64.encode bytes))) = .ok bytes := by
  obtain ⟨units, chars⟩ := units_encode bytes
  rw [b64decode, if_pos units, chars, Base64.decode_encode]

theorem keys_nodup : [str "channel", str "ts_ns", str "header", str "payload"].Nodup := by decide

theorem fromObject_toObject : Record.fromObject py rec.toObject = .ok rec := by
  have channel : subscript "channel" rec.toObject = .ok rec.channel := rfl
  have tsNs : subscript "ts_ns" rec.toObject = .ok (.integer rec.tsNs) := rfl
  have header : subscript "header" rec.toObject = .ok rec.header := rfl
  have payload : subscript "payload" rec.toObject =
      .ok (.string (strOfAscii (Base64.encode rec.payload))) := rfl
  simp only [Record.fromObject, channel, tsNs, header, payload, int, b64decode_encode, bind,
    Except.bind, pure, Except.pure]

theorem toObject_wellFormed (named : rec.channel.WellFormed) (formed : rec.header.WellFormed) :
    rec.toObject.WellFormed :=
  ⟨keys_nodup, named, trivial, formed, trivial, trivial⟩

theorem toLine_eq_ok_iff : rec.toLine py = .ok line ↔
    JsonText.dumps py.floats py.limits rec.toObject = .ok line := by
  rw [Record.toLine, dumps]
  split
  · next t same => simp [same]
  · next e same => simp [same]

/-- A written line reads as the record it was written for. -/
theorem fromLine_toLine (named : rec.channel.WellFormed) (formed : rec.header.WellFormed)
    (wrote : rec.toLine py = .ok line) : Record.fromLine py line = .ok rec := by
  have read := loads_dumps (toObject_wellFormed named formed) (toLine_eq_ok_iff.mp wrote)
  simp only [Record.fromLine, loads, read, bind, Except.bind, fromObject_toObject]

/-- No part of a written line is a record, and reading one is skipped. -/
theorem fromLine_part (named : rec.channel.WellFormed) (formed : rec.header.WellFormed)
    (wrote : rec.toLine py = .ok line) {p q : List Char} (cut : line = p ++ q) (more : q ≠ []) :
    ∃ e, Record.fromLine py p = .error e ∧ skips e = true := by
  obtain ⟨e, raised, other⟩ := loads_part (toObject_wellFormed named formed)
    (toLine_eq_ok_iff.mp wrote) cut more
  refine ⟨.json e, ?_, ?_⟩
  · simp only [Record.fromLine, loads, raised, bind, Except.bind]
  · cases e with
    | decodeError => rfl
    | valueError => rfl
    | recursionError => exact absurd rfl other

/-! ## The lines of the file -/

theorem toLine_shape (wrote : rec.toLine py = .ok line) :
    Printable line ∧ ∃ t, line = '{' :: (t ++ ['}']) := by
  have text := toLine_eq_ok_iff.mp wrote
  rw [JsonText.dumps] at text
  split at text
  · cases text
  · cases text
    exact ⟨text_printable _, _, rfl⟩

theorem not_mem_of_printable {t : List Char} (printable : Printable t) {c : Char}
    (control : isPrintable c = false) : c ∉ t := by
  intro member
  rw [printable c member] at control
  cases control

theorem readLines_line (named : rec.channel.WellFormed) (formed : rec.header.WellFormed)
    (wrote : rec.toLine py = .ok line) (rest : List (List Char)) :
    readLines py (line :: rest) = (readLines py rest).map (rec :: ·) := by
  obtain ⟨-, t, rfl⟩ := toLine_shape wrote
  have whole : Lines.strip ('{' :: (t ++ ['}'])) = '{' :: (t ++ ['}']) :=
    Lines.strip_between rfl rfl
  have read : ¬ ('{' :: (t ++ ['}']) = [] ∨ ('{' :: (t ++ ['}'])).head? = some '#') := by simp
  simp only [readLines, whole, if_neg read, fromLine_toLine named formed wrote]

theorem readLines_part (named : rec.channel.WellFormed) (formed : rec.header.WellFormed)
    (wrote : rec.toLine py = .ok line) {p q : List Char} (cut : line = p ++ q) (more : q ≠ [])
    (rest : List (List Char)) : readLines py (p :: rest) = readLines py rest := by
  obtain ⟨-, t, shape⟩ := toLine_shape wrote
  have strips : ∃ spaces, p = Lines.strip p ++ spaces := by
    cases p with
    | nil => exact ⟨[], rfl⟩
    | cons c p =>
      have brace : '{' = c := (List.cons.inj (shape.symm.trans cut)).1
      exact Lines.strip_begins (brace ▸ rfl)
  obtain ⟨spaces, same⟩ := strips
  have cut' : line = Lines.strip p ++ (spaces ++ q) := by
    rw [← List.append_assoc, ← same, cut]
  obtain ⟨e, raised, skipped⟩ := fromLine_part named formed wrote cut'
    fun none => more (List.append_eq_nil_iff.mp none).2
  rw [readLines]
  split
  · rfl
  · simp only [raised, skipped, if_true]

/-- A file of written lines, with what was left of the last one. -/
theorem readAll_written {lines : List (List Char)} {tail : List Char}
    (printable : ∀ line ∈ lines, Printable line) (last : Printable tail) :
    readAll py (encodeText (lines.flatMap (· ++ ['\n']) ++ tail)) =
      readLines py (lines ++ Lines.lines tail) := by
  have returns : '\r' ∉ lines.flatMap (· ++ ['\n']) ++ tail := by
    intro member
    rcases List.mem_append.mp member with inside | after
    · obtain ⟨line, held, here⟩ := List.mem_flatMap.mp inside
      rcases List.mem_append.mp here with within | ending
      · exact not_mem_of_printable (printable line held) rfl within
      · simp at ending
    · exact not_mem_of_printable last rfl after
  have ends : ∀ line ∈ lines, '\n' ∉ line :=
    fun line held => not_mem_of_printable (printable line held) rfl
  rw [readAll, fromUTF8?_encodeText]
  simp only [String.toList_ofList]
  rw [Lines.translate_of_no_return returns, Lines.lines_written lines tail ends]
end
end Lexaire.Replay
