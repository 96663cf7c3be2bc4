import Lexaire.Core.LineEnds
import Lexaire.Replay.Session

/-! Recordings with lines that are no records. A line that is not blank and no comment is
read under a handler for some of the exceptions, and the file is decoded outside of it;
the converters take more than what a recording holds. -/
namespace Lexaire.Replay
open JsonText

section
variable {F : Type} (py : Python F)

/-- The text of a base64 string. -/
def base64Text? (s : Units) : Option (List Char) :=
  let t := s.map fun u => Char.ofNat u.toNat
  if s.all (·.toNat < 128) && Base64.isGrouped t then some t else none

/-- The record that the members of an object are: each field is there, with its type. -/
def validMembers? (members : List (Units × Value F)) : Option (Record F) :=
  match members.lookup (str "channel"), members.lookup (str "ts_ns"),
    members.lookup (str "header"), members.lookup (str "payload") with
  | some (.string channel), some (.integer tsNs), some (.object header), some (.string payload) =>
    ((base64Text? payload).bind Base64.decode).map fun bytes =>
      { channel := .string channel, tsNs, header := .object header, payload := bytes }
  | _, _, _, _ => none

/-- The record of a valid record line. -/
def validText? (line : List Char) : Option (Record F) :=
  match loads py (Lines.strip line) with
  | .ok (.object members) => validMembers? members
  | _ => none

def validLine? (line : List UInt8) : Option (Record F) := (Lines.decode line).bind (validText? py)

/-- The lines of a file as it is on disk. -/
def fileLines (file : ByteArray) : List (List UInt8) := Lines.ofFile file.data.toList

/-! ## What is skipped -/

/-- The first of the fields that cannot be read is missing, or refused with a ValueError. -/
inductive Lacks (members : List (Units × Value F)) : Prop where
  | channel (missing : members.lookup (str "channel") = none)
  | tsNs {channel : Value F} (found : members.lookup (str "channel") = some channel)
      (missing : members.lookup (str "ts_ns") = none)
  | time {channel tsNs : Value F} {e : Raised}
      (found : members.lookup (str "channel") = some channel)
      (there : members.lookup (str "ts_ns") = some tsNs) (refused : int py tsNs = .error e)
      (skipped : skips e = true)
  | header {channel tsNs : Value F} {n : Int}
      (found : members.lookup (str "channel") = some channel)
      (there : members.lookup (str "ts_ns") = some tsNs) (read : int py tsNs = .ok n)
      (missing : members.lookup (str "header") = none)
  | payload {channel tsNs header : Value F} {n : Int}
      (found : members.lookup (str "channel") = some channel)
      (there : members.lookup (str "ts_ns") = some tsNs) (read : int py tsNs = .ok n)
      (headed : members.lookup (str "header") = some header)
      (missing : members.lookup (str "payload") = none)
  | base64 {channel tsNs header : Value F} {n : Int} {s : Units}
      (found : members.lookup (str "channel") = some channel)
      (there : members.lookup (str "ts_ns") = some tsNs) (read : int py tsNs = .ok n)
      (headed : members.lookup (str "header") = some header)
      (carried : members.lookup (str "payload") = some (.string s))
      (refused : b64decode (F := F) (.string s) = .error .valueError)

/-- A line that does no harm: blank, a comment, no JSON, or an object that lacks a field. -/
inductive Harmless (line : List Char) : Prop where
  | blank (empty : Lines.strip line = [])
  | comment (hash : (Lines.strip line).head? = some '#')
  | notJson (failed : loads py (Lines.strip line) = .error (.json .decodeError))
  | digits (failed : loads py (Lines.strip line) = .error (.json .valueError))
  | lacks {members : List (Units × Value F)} (read : loads py (Lines.strip line) = .ok (.object members))
      (lacks : Lacks py members)
end

section
variable {F : Type} {py : Python F} {line : List Char} {members : List (Units × Value F)}
  {rec : Record F}

theorem subscript_eq (key : String) : subscript key (.object members) =
    match members.lookup (str key) with
    | some v => .ok v
    | none => .error .keyError := rfl

theorem fromObject_valid (valid : validMembers? members = some rec) :
    Record.fromObject py (.object members) = .ok rec := by
  unfold validMembers? at valid
  split at valid
  · next channel tsNs header payload named timed headed carried =>
    simp only [Option.map_eq_some_iff, Option.bind_eq_some_iff] at valid
    obtain ⟨bytes, ⟨t, encoded, decoded⟩, rfl⟩ := valid
    simp only [base64Text?, Option.ite_none_right_eq_some, Bool.and_eq_true,
      Option.some.injEq] at encoded
    obtain ⟨⟨ascii, -⟩, rfl⟩ := encoded
    have read : b64decode (F := F) (.string payload) = .ok bytes := by
      rw [b64decode, if_pos ascii, decoded]
    simp only [Record.fromObject, subscript_eq, named, timed, headed, carried, int, read, bind,
      Except.bind, pure, Except.pure]
  · cases valid

theorem b64decode_refused {s : Units} {e : Raised}
    (refused : b64decode (F := F) (.string s) = .error e) : e = .valueError := by
  rw [b64decode] at refused
  split at refused
  · split at refused
    · cases refused
    · exact (Except.error.inj refused).symm
  · exact (Except.error.inj refused).symm

theorem lacks_of_fromObject {e : Raised} (failed : Record.fromObject py (.object members) = .error e)
    (skipped : skips e = true) : Lacks py members := by
  cases found : members.lookup (str "channel") with
  | none => exact .channel found
  | some channel =>
    cases there : members.lookup (str "ts_ns") with
    | none => exact .tsNs found there
    | some tsNs =>
      cases read : int py tsNs with
      | error e' =>
        simp only [Record.fromObject, subscript_eq, found, there, read, bind, Except.bind,
          Except.error.injEq] at failed
        exact .time found there read (failed ▸ skipped)
      | ok n =>
        cases headed : members.lookup (str "header") with
        | none => exact .header found there read headed
        | some header =>
          cases carried : members.lookup (str "payload") with
          | none => exact .payload found there read headed carried
          | some payload =>
            simp only [Record.fromObject, subscript_eq, found, there, read, headed, carried, bind,
              Except.bind] at failed
            cases payload with
            | string s =>
              refine .base64 found there read headed carried ?_
              cases decoded : b64decode (F := F) (.string s) with
              | ok bytes =>
                rw [decoded] at failed
                cases failed
              | error e' => rw [b64decode_refused decoded]
            | _ =>
              cases failed
              cases skipped

theorem fromObject_of_lacks (lacks : Lacks py members) :
    ∃ e, Record.fromObject py (.object members) = .error e ∧ skips e = true := by
  cases lacks with
  | channel missing =>
    refine ⟨.keyError, ?_, rfl⟩
    simp only [Record.fromObject, subscript_eq, missing, bind, Except.bind]
  | tsNs found missing =>
    refine ⟨.keyError, ?_, rfl⟩
    simp only [Record.fromObject, subscript_eq, found, missing, bind, Except.bind]
  | time found there refused skipped =>
    refine ⟨_, ?_, skipped⟩
    simp only [Record.fromObject, subscript_eq, found, there, refused, bind, Except.bind]
  | header found there read missing =>
    refine ⟨.keyError, ?_, rfl⟩
    simp only [Record.fromObject, subscript_eq, found, there, read, missing, bind, Except.bind]
  | payload found there read headed missing =>
    refine ⟨.keyError, ?_, rfl⟩
    simp only [Record.fromObject, subscript_eq, found, there, read, headed, missing, bind, Except.bind]
  | base64 found there read headed carried refused =>
    refine ⟨.valueError, ?_, rfl⟩
    simp only [Record.fromObject, subscript_eq, found, there, read, headed, carried, refused, bind,
      Except.bind]

/-- Reading the fields is given up with a caught exception exactly when one is lacking. -/
theorem fromObject_skipped_iff : (∃ e, Record.fromObject py (.object members) = .error e ∧
    skips e = true) ↔ Lacks py members := by
  constructor
  · rintro ⟨e, failed, skipped⟩
    exact lacks_of_fromObject failed skipped
  · exact fromObject_of_lacks

theorem fromLine_of_loads {line : List Char} {v : Value F} (read : loads py line = .ok v) :
    Record.fromLine py line = Record.fromObject py v := by
  simp only [Record.fromLine, read, bind, Except.bind]

/-- A line that is neither blank nor a comment is given up with a caught exception. -/
theorem fromLine_skipped_iff (text : Lines.strip line ≠ [])
    (notComment : (Lines.strip line).head? ≠ some '#') :
    (∃ e, Record.fromLine py (Lines.strip line) = .error e ∧ skips e = true) ↔ Harmless py line := by
  constructor
  · rintro ⟨e, failed, skipped⟩
    cases read : loads py (Lines.strip line) with
    | ok v =>
      rw [fromLine_of_loads read] at failed
      cases v with
      | object members => exact .lacks read (fromObject_skipped_iff.mp ⟨e, failed, skipped⟩)
      | _ =>
        cases failed
        cases skipped
    | error e' =>
      simp only [Record.fromLine, read, bind, Except.bind, Except.error.injEq] at failed
      subst e'
      cases e with
      | json raised =>
        cases raised with
        | decodeError => exact .notJson read
        | valueError => exact .digits read
        | recursionError => cases skipped
      | _ =>
        rw [loads] at read
        split at read <;> cases read
  · intro harmless
    cases harmless with
    | blank empty => exact absurd empty text
    | comment hash => exact absurd hash notComment
    | notJson failed =>
      exact ⟨.json .decodeError, by simp only [Record.fromLine, failed, bind, Except.bind], rfl⟩
    | digits failed =>
      exact ⟨.json .valueError, by simp only [Record.fromLine, failed, bind, Except.bind], rfl⟩
    | lacks read lacks =>
      rw [fromLine_of_loads read]
      exact fromObject_skipped_iff.mpr lacks

/-- A JSON text is not empty and begins with no hash. -/
theorem loads_starts {t : List Char} {v : Value F} (read : loads py t = .ok v) :
    t ≠ [] ∧ t.head? ≠ some '#' := by
  have refused (t : List Char) (depth : Nat) (bad : t = [] ∨ t.head? = some '#') :
      scanOnce py.floats py.limits depth t = .error .decodeError := by
    rcases bad with rfl | hash
    · cases depth <;> rfl
    · obtain ⟨rest, rfl⟩ := List.head?_eq_some_iff.mp hash
      cases depth <;> rfl
  by_contra bad
  have bad : t = [] ∨ t.head? = some '#' := by
    by_cases empty : t = []
    · exact .inl empty
    · exact .inr (by_contra fun other => bad ⟨empty, other⟩)
  have skipped : skipSpace t = t := by
    rcases bad with rfl | hash
    · rfl
    · obtain ⟨rest, rfl⟩ := List.head?_eq_some_iff.mp hash
      rfl
  rw [loads, JsonText.loads, skipped, refused t _ bad] at read
  cases read

/-- A valid line is read as its record. -/
theorem fromLine_valid (valid : validText? py line = some rec) :
    Record.fromLine py (Lines.strip line) = .ok rec ∧ Lines.strip line ≠ [] ∧
      (Lines.strip line).head? ≠ some '#' := by
  unfold validText? at valid
  split at valid
  · next members read =>
    exact ⟨(fromLine_of_loads read).trans (fromObject_valid valid), loads_starts read⟩
  · cases valid

/-- What `write` writes for a record of a channel's name and a header that is an object is
a valid line. -/
theorem validText?_toLine {channel : Units} {header : List (Units × Value F)}
    (named : rec.channel = .string channel) (headed : rec.header = .object header)
    (formed : rec.header.WellFormed) (wrote : rec.toLine py = .ok line) :
    validText? py line = some rec := by
  obtain ⟨-, t, shape⟩ := toLine_shape wrote
  have whole : Lines.strip line = line := by
    rw [shape]
    exact Lines.strip_between rfl rfl
  have channelFormed : rec.channel.WellFormed := by
    rw [named]
    trivial
  have read : loads py line = .ok rec.toObject := by
    rw [loads, loads_dumps (toObject_wellFormed channelFormed formed) (toLine_eq_ok_iff.mp wrote)]
  obtain ⟨units, chars⟩ := units_encode rec.payload
  have carried : base64Text? (strOfAscii (Base64.encode rec.payload)) =
      some (Base64.encode rec.payload) := by
    simp only [base64Text?, chars, units, Base64.isGrouped_encode, Bool.and_self, if_true]
  obtain ⟨_, tsNs, _, payload⟩ := rec
  obtain rfl := named
  obtain rfl := headed
  have members : validMembers? [(str "channel", .string channel), (str "ts_ns", .integer tsNs),
      (str "header", .object header), (str "payload", .string (strOfAscii (Base64.encode payload)))] =
      ((base64Text? (strOfAscii (Base64.encode payload))).bind Base64.decode).map fun bytes =>
        (⟨.string channel, tsNs, .object header, bytes⟩ : Record F) := rfl
  rw [validText?, whole, read]
  simp only [Record.toObject, members, carried, Option.bind_some, Base64.decode_encode,
    Option.map_some]

/-! ## The lines of a text -/

variable {lines : List (List Char)}

theorem readLines_cons (line : List Char) (rest : List (List Char)) :
    readLines py (line :: rest) =
      if Lines.strip line = [] ∨ (Lines.strip line).head? = some '#' then readLines py rest
      else
        match Record.fromLine py (Lines.strip line) with
        | .ok rec => (readLines py rest).map (rec :: ·)
        | .error e => if skips e then readLines py rest else .error e := rfl

theorem readLines_harmless (harmless : Harmless py line) (rest : List (List Char)) :
    readLines py (line :: rest) = readLines py rest := by
  rw [readLines_cons]
  split
  · rfl
  · next kept =>
    obtain ⟨text, notComment⟩ := not_or.mp kept
    obtain ⟨e, failed, skipped⟩ := (fromLine_skipped_iff text notComment).mpr harmless
    simp only [failed, skipped, if_true]

theorem readLines_valid (valid : validText? py line = some rec) (rest : List (List Char)) :
    readLines py (line :: rest) = (readLines py rest).map (rec :: ·) := by
  obtain ⟨read, text, notComment⟩ := fromLine_valid valid
  rw [readLines_cons, if_neg (not_or.mpr ⟨text, notComment⟩), read]

theorem map_cons_eq_ok_iff {ε α : Type} {result : Except ε (List α)} {a : α} {as : List α} :
    result.map (a :: ·) = .ok as ↔ ∃ rest, result = .ok rest ∧ as = a :: rest := by
  cases result with
  | error e => simp [Except.map]
  | ok rest => simp [Except.map, eq_comm]

/-- No valid record is lost. -/
theorem validText?_length {records : List (Record F)} (read : readLines py lines = .ok records) :
    (lines.filterMap (validText? py)).length ≤ records.length := by
  induction lines generalizing records with
  | nil => exact Nat.zero_le _
  | cons line rest ih =>
    cases valid : validText? py line with
    | some rec =>
      rw [readLines_valid valid] at read
      obtain ⟨later, after, rfl⟩ := map_cons_eq_ok_iff.mp read
      rw [List.filterMap_cons_some valid]
      exact Nat.succ_le_succ (ih after)
    | none =>
      rw [List.filterMap_cons_none valid]
      rw [readLines_cons] at read
      split at read
      · exact ih read
      · split at read
        · obtain ⟨later, after, rfl⟩ := map_cons_eq_ok_iff.mp read
          exact Nat.le_succ_of_le (ih after)
        · split at read
          · exact ih read
          · cases read

/-- A line that does harm is read as a record or ends the reading. -/
theorem readLines_harmful (harmful : ¬ Harmless py line) (rest : List (List Char)) :
    (∃ rec, readLines py (line :: rest) = (readLines py rest).map (rec :: ·)) ∨
      ∃ e, readLines py (line :: rest) = .error e := by
  have text : Lines.strip line ≠ [] := fun empty => harmful (.blank empty)
  have notComment : (Lines.strip line).head? ≠ some '#' := fun hash => harmful (.comment hash)
  have skipped := mt (fromLine_skipped_iff text notComment).mp harmful
  rw [readLines_cons, if_neg (not_or.mpr ⟨text, notComment⟩)]
  cases read : Record.fromLine py (Lines.strip line) with
  | ok rec => exact .inl ⟨rec, rfl⟩
  | error e => exact .inr ⟨e, if_neg fun caught => skipped ⟨e, read, caught⟩⟩

theorem readLines_iff : readLines py lines = .ok (lines.filterMap (validText? py)) ↔
    ∀ line ∈ lines, validText? py line = none → Harmless py line := by
  induction lines with
  | nil => simp [readLines]
  | cons line rest ih =>
    rw [List.forall_mem_cons, ← ih]
    cases valid : validText? py line with
    | some rec =>
      rw [readLines_valid valid, List.filterMap_cons_some valid, map_cons_eq_ok_iff]
      simp
    | none =>
      rw [List.filterMap_cons_none valid]
      by_cases harmless : Harmless py line
      · simp [readLines_harmless harmless, harmless]
      · have lost : readLines py (line :: rest) ≠ .ok (rest.filterMap (validText? py)) := by
          intro read
          rcases readLines_harmful harmless rest with ⟨rec, same⟩ | ⟨e, same⟩
          · rw [same] at read
            obtain ⟨later, read, whole⟩ := map_cons_eq_ok_iff.mp read
            have short := validText?_length read
            rw [whole] at short
            exact absurd short (Nat.not_succ_le_self _)
          · rw [same] at read
            cases read
        simp [lost, harmless]

/-! ## The file -/

theorem readAll_eq (file : ByteArray) : readAll py file =
    match Lines.decode file.data.toList with
    | none => .error .unicodeDecodeError
    | some t => readLines py (Lines.lines (Lines.translate t)) := by
  rw [readAll, Lines.decode]
  cases String.fromUTF8? file <;> rfl

/-- Playing a recording yields the records of its valid lines, and raises nothing, exactly
when every other line is text and does no harm. -/
theorem bad_lines_skipped_iff (py : Python F) (file : ByteArray) :
    readAll py file = .ok ((fileLines file).filterMap (validLine? py)) ↔
      ∀ line ∈ fileLines file, validLine? py line = none →
        ∃ t, Lines.decode line = some t ∧ Harmless py t := by
  rw [readAll_eq]
  cases decoded : Lines.decode file.data.toList with
  | none =>
    refine ⟨fun raised => (nomatch raised), fun harmless => ?_⟩
    have texts : ∀ line ∈ fileLines file, (Lines.decode line).isSome = true := by
      intro line member
      cases valid : validLine? py line with
      | some rec =>
        obtain ⟨t, text, -⟩ := Option.bind_eq_some_iff.mp valid
        simp [text]
      | none =>
        obtain ⟨t, text, -⟩ := harmless line member valid
        simp [text]
    have whole := Lines.decode_isSome_of_lines texts
    rw [decoded] at whole
    cases whole
  | some t =>
    have whole : fileLines file = (Lines.lines (Lines.translate t)).map Lines.encode := by
      rw [fileLines, Lines.decode_eq_some_iff.mp decoded, Lines.ofFile_encode]
    have back (t : List Char) : Lines.decode (Lines.encode t) = some t :=
      Lines.decode_eq_some_iff.mpr rfl
    have same (t : List Char) : validLine? py (Lines.encode t) = validText? py t := by
      rw [validLine?, back]
      rfl
    have records : (fileLines file).filterMap (validLine? py) =
        (Lines.lines (Lines.translate t)).filterMap (validText? py) := by
      rw [whole, List.filterMap_map]
      exact List.filterMap_congr fun line _ => same line
    rw [records, whole, List.forall_mem_map]
    simp only [same, back, Option.some.injEq, exists_eq_left']
    exact readLines_iff

/-! ## A line of JSON that is no object -/

/-- A line of null ends the playback, and with it the record behind it. -/
theorem null_line_raises : ¬ ∀ (F : Type) (py : Python F) (file : ByteArray),
    readAll py file = .ok ((fileLines file).filterMap (validLine? py)) := by
  intro claimed
  have raised : readAll nanPython (encodeText ("null\n".toList ++ imuLine)) = .error .typeError := by
    rw [readAll, fromUTF8?_encodeText]
    simp only [String.toList_ofList]
    rfl
  have read := claimed Unit nanPython (encodeText ("null\n".toList ++ imuLine))
  rw [raised] at read
  cases read

end
end Lexaire.Replay
