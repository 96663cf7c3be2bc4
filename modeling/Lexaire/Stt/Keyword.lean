import Lexaire.Core.Lines
import Lexaire.Orchestrator.Script

/-! The abort keyword in the two services that look for it: STT flags the commands it
sends (`stt/main.py`), and the orchestrator searches the text once more. Both take
`stt.abort_keyword` from one configuration and compile the same pattern. -/
namespace Lexaire.Stt
open Orchestrator Text Lines

/-- `text.strip()`. -/
def stripText (text : String) : String := String.ofList (strip text.toList)

/-- What both constructors make of the configured keyword; a blank one raises. -/
def abortKeyword? (configured : String) : Option String :=
  if stripText configured = "" then none else some (stripText configured)

/-- The engine of the compiled pattern, and the keyword in it. -/
structure SttService where
  alphabet : Alphabet
  abortKeyword : String

def SttService.init? (alphabet : Alphabet) (configured : String) : Option SttService :=
  (abortKeyword? configured).map fun abortKeyword => { alphabet, abortKeyword }

/-- `Orchestrator.__init__`, as far as commands go. -/
def orchestrator? (alphabet : Alphabet) (configured : String) (maxSteps : Int) : Option Settings :=
  (abortKeyword? configured).map fun abortKeyword => { alphabet, abortKeyword, maxSteps }

/-- The command that is pushed; nothing is, for a blank text. -/
def SttService.send (stt : SttService) (text : String) : Option VoiceCommand :=
  if stripText text = "" then none
  else some {
    text := stripText text
    isAbort := stt.alphabet.search stt.abortKeyword (stripText text) }

/-- `encode_header` of the command. -/
def header (tsNs : Int) (cmd : VoiceCommand) : Json := .object [
  ("ts_ns", .integer tsNs),
  ("text", .string cmd.text),
  ("is_abort", .boolean cmd.isAbort)]

/-- The command thread of the orchestrator decodes what was sent. -/
theorem ofHeader_header {py : Interpreter} {tsNs : Int} (stamp : py.int (.integer tsNs) = .ok tsNs)
    (texts : ∀ s, py.str (.string s) = s) (cmd : VoiceCommand) :
    VoiceCommand.ofHeader py (header tsNs cmd) = .ok cmd := by
  simp [header, VoiceCommand.ofHeader, List.lookup, stamp, texts, truthy]

/-- What `_on_command` does before it branches. -/
def resets (settings : Settings) (cmd : VoiceCommand) (branch : Code Unit) : Code Unit := do
  Op.call .clearBridgeOffline
  Op.call .preemptClear
  Op.call (.setArmAuthorized (settings.alphabet.search "arm" cmd.text))
  branch

theorem onCommand_eq (settings : Settings) (cmd : VoiceCommand) :
    onCommand settings cmd = resets settings cmd
      (if settings.isAbort cmd then abort cmd.text else mission settings.maxSteps cmd.text) := rfl

/-- The keyword stands in the text between `before` and `after`. -/
structure Occurs (a : Alphabet) (keyword text before occ after : List Char) : Prop where
  split : text = before ++ occ ++ after
  same : List.Forall₂ (a.same · ·) occ keyword

/-- Somewhere with whitespace, or an end of the text, on each side. -/
def Delimited (a : Alphabet) (keyword text : List Char) : Prop :=
  ∃ before occ after, Occurs a keyword text before occ after ∧
    before.getLast?.all isSpace = true ∧ after.head?.all isSpace = true

/-- Everywhere with a further word character next to a word character of its own. -/
def Embedded (a : Alphabet) (keyword text : List Char) : Prop :=
  ∀ before occ after, Occurs a keyword text before occ after →
    (keyword.head?.any a.isWord = true ∧ before.getLast?.any a.isWord = true) ∨
      (keyword.getLast?.any a.isWord = true ∧ after.head?.any a.isWord = true)

/-- The keyword begins and ends with a word character, also where it is said with what passes
for these characters. -/
def Worded (a : Alphabet) (keyword : List Char) : Prop :=
  (∀ p, keyword.head? = some p → a.Letter p) ∧ ∀ p, keyword.getLast? = some p → a.Letter p

/-- What is asked of both services for an utterance. -/
structure Heeded (stt : SttService) (settings : Settings) (text : String) : Prop where
  heard : Delimited stt.alphabet stt.abortKeyword.toList text.toList →
    ∃ cmd, stt.send text = some cmd ∧ cmd.isAbort = true ∧
      onCommand settings cmd = resets settings cmd (abort cmd.text)
  spared : Embedded stt.alphabet stt.abortKeyword.toList text.toList →
    ∀ cmd, stt.send text = some cmd → cmd.isAbort = false ∧
      onCommand settings cmd = resets settings cmd (mission settings.maxSteps cmd.text)
  agree : ∀ cmd, stt.send text = some cmd →
    cmd.isAbort = settings.alphabet.search settings.abortKeyword cmd.text

/-- What the regex engine is known for: spaces are no word characters, and ASCII's letters
are compared without case. -/
structure Engine (a : Alphabet) : Prop where
  spaces : ∀ {c}, isSpace c = true → a.isWord c = false
  same_self : ∀ c, a.same c c = true
  folds : ∀ {c d}, c.isAlpha = true → d.isAlpha = true → c.toLower = d.toLower → a.same c d = true

theorem abortKeyword?_some {configured keyword : String}
    (kept : abortKeyword? configured = some keyword) :
    keyword.toList ≠ [] ∧ Stripped keyword.toList := by
  unfold abortKeyword? at kept
  split at kept
  · cases kept
  · next nonblank =>
    obtain rfl := Option.some.inj kept
    have stripped := stripped_strip configured.toList
    constructor
    · intro empty
      exact nonblank (String.toList_inj.mp empty)
    · simpa [stripText] using stripped

/-- Both services have the same keyword. -/
theorem started {a : Alphabet} {configured : String} {maxSteps : Int} {stt : SttService}
    {settings : Settings} (sends : SttService.init? a configured = some stt)
    (receives : orchestrator? a configured maxSteps = some settings) :
    stt.alphabet = a ∧ settings.alphabet = a ∧ settings.abortKeyword = stt.abortKeyword ∧
      stt.abortKeyword.toList ≠ [] ∧ Stripped stt.abortKeyword.toList := by
  unfold SttService.init? at sends
  unfold orchestrator? at receives
  cases kept : abortKeyword? configured with
  | none => simp [kept] at sends
  | some keyword =>
    simp only [kept, Option.map_some, Option.some.injEq] at sends receives
    obtain rfl := sends
    obtain rfl := receives
    exact ⟨rfl, rfl, rfl, abortKeyword?_some kept⟩

section
variable {a : Alphabet} {keyword text : String}

/-- Word characters are no spaces. -/
theorem Engine.last_space (engine : Engine a) {before : List Char}
    (space : before.getLast?.all isSpace = true) : before.getLast?.any a.isWord = false := by
  cases last : before.getLast? with
  | none => rfl
  | some c =>
    rw [last] at space
    simpa using engine.spaces (by simpa using space)

theorem Engine.head_space (engine : Engine a) {after : List Char}
    (space : after.head?.all isSpace = true) : after.head?.any a.isWord = false := by
  cases first : after.head? with
  | none => rfl
  | some c =>
    rw [first] at space
    simpa using engine.spaces (by simpa using space)

/-- Wherever such a keyword stands, it begins and ends as a word. -/
theorem Worded.ends (worded : Worded a keyword.toList) (nonempty : keyword.toList ≠ [])
    {occ : List Char} (same : List.Forall₂ (a.same · ·) occ keyword.toList) :
    occ.head?.any a.isWord = true ∧ occ.getLast?.any a.isWord = true := by
  have head := List.head?_eq_some_head nonempty
  have last := List.getLast?_eq_some_getLast nonempty
  exact ⟨Alphabet.head?_letter same head (worded.1 _ head),
    Alphabet.getLast?_letter same last (worded.2 _ last)⟩

/-- Between spaces the search finds it. -/
theorem delimited_found (engine : Engine a) (nonempty : keyword.toList ≠ [])
    (worded : Worded a keyword.toList) (delimited : Delimited a keyword.toList text.toList) :
    a.search keyword text = true := by
  obtain ⟨before, occ, after, ⟨split, same⟩, left, right⟩ := delimited
  obtain ⟨starts, stops⟩ := worded.ends nonempty same
  rw [Alphabet.search_iff nonempty]
  refine ⟨before, occ, after, split, same, ?_, ?_⟩
  · rw [Alphabet.boundary, engine.last_space left, starts]
    rfl
  · rw [Alphabet.boundary, engine.head_space right, stops]
    rfl

theorem embedded_missed (nonempty : keyword.toList ≠ []) (worded : Worded a keyword.toList)
    (embedded : Embedded a keyword.toList text.toList) : a.search keyword text = false := by
  rw [← Bool.not_eq_true, Alphabet.search_iff nonempty]
  rintro ⟨before, occ, after, split, same, left, right⟩
  obtain ⟨starts, stops⟩ := worded.ends nonempty same
  rcases embedded before occ after ⟨split, same⟩ with ⟨-, next⟩ | ⟨-, next⟩
  · rw [Alphabet.boundary, next, starts] at left
    cases left
  · rw [Alphabet.boundary, next, stops] at right
    cases right

theorem Engine.stripped_of_worded (engine : Engine a) {occ : List Char}
    (same : List.Forall₂ (a.same · ·) occ keyword.toList) (nonempty : keyword.toList ≠ [])
    (worded : Worded a keyword.toList) : occ ≠ [] ∧ Stripped occ := by
  obtain ⟨first, last⟩ := worded.ends nonempty same
  refine ⟨?_, ?_, ?_⟩
  · rintro rfl
    cases first
  · intro c begins
    rw [begins, Option.any_some] at first
    by_contra space
    rw [engine.spaces (by simpa using space)] at first
    cases first
  · intro c ends
    rw [ends, Option.any_some] at last
    by_contra space
    rw [engine.spaces (by simpa using space)] at last
    cases last

/-- Stripping takes no keyword away. -/
theorem delimited_strip (engine : Engine a) (nonempty : keyword.toList ≠ [])
    (worded : Worded a keyword.toList)
    (delimited : Delimited a keyword.toList text.toList) :
    Delimited a keyword.toList (stripText text).toList := by
  obtain ⟨before, occ, after, ⟨split, same⟩, left, right⟩ := delimited
  obtain ⟨nonempty, stripped⟩ := engine.stripped_of_worded same nonempty worded
  refine ⟨before.dropWhile isSpace, occ, after.rdropWhile isSpace, ⟨?_, same⟩,
    getLast?_dropWhile left, head?_rdropWhile right⟩
  rw [stripText, String.toList_ofList, split, strip_around nonempty stripped]

/-- Nor does it put one apart from its neighbours. -/
theorem embedded_strip (engine : Engine a) (embedded : Embedded a keyword.toList text.toList) :
    Embedded a keyword.toList (stripText text).toList := by
  obtain ⟨left, right, split, leading, trailing⟩ := strip_parts text.toList
  intro before occ after ⟨inner, same⟩
  rw [stripText, String.toList_ofList] at inner
  have whole : text.toList = (left ++ before) ++ occ ++ (after ++ right) := by
    rw [split, inner]
    simp only [List.append_assoc]
  refine (embedded _ _ _ ⟨whole, same⟩).imp (And.imp_right fun next => ?_)
    (And.imp_right fun next => ?_)
  · rcases List.eq_nil_or_concat before with rfl | ⟨earlier, c, rfl⟩
    · rw [List.append_nil, engine.last_space] at next
      · cases next
      · cases last : left.getLast? with
        | none => rfl
        | some c => simpa using leading c (List.mem_of_getLast? last)
    · rwa [List.getLast?_append_of_ne_nil _ (by simp)] at next
  · cases after with
    | nil =>
      rw [List.nil_append, engine.head_space] at next
      · cases next
      · cases first : right.head? with
        | none => rfl
        | some c => simpa using trailing c (List.mem_of_head? first)
    | cons c later => exact next

/-- In a text of no more than its length a keyword is found only as a word that fills it. -/
theorem found_alone (nonempty : keyword.toList ≠ []) (short : text.toList.length ≤ keyword.toList.length)
    (found : a.search keyword text = true) : text.toList.length = keyword.toList.length ∧
      text.toList.head?.any a.isWord = true ∧ text.toList.getLast?.any a.isWord = true := by
  obtain ⟨before, occ, after, split, same, left, right⟩ := (Alphabet.search_iff nonempty).mp found
  have lengths := congrArg List.length split
  simp only [List.length_append, same.length_eq] at lengths
  obtain rfl : before = [] := List.eq_nil_of_length_eq_zero (by omega)
  obtain rfl : after = [] := List.eq_nil_of_length_eq_zero (by omega)
  obtain rfl : text.toList = occ := by simpa using split
  exact ⟨same.length_eq, by simpa [Alphabet.boundary] using left,
    by simpa [Alphabet.boundary] using right⟩

theorem send_eq_some {stt : SttService} {cmd : VoiceCommand} (sent : stt.send text = some cmd) :
    cmd.text = stripText text ∧
      cmd.isAbort = stt.alphabet.search stt.abortKeyword (stripText text) := by
  unfold SttService.send at sent
  split at sent
  · cases sent
  · obtain rfl := Option.some.inj sent
    exact ⟨rfl, rfl⟩

/-- The two checks of one keyword agree on what was sent. -/
theorem isAbort_sent {stt : SttService} {settings : Settings} {cmd : VoiceCommand}
    (alphabet : settings.alphabet = stt.alphabet)
    (keyword : settings.abortKeyword = stt.abortKeyword) (sent : stt.send text = some cmd) :
    settings.isAbort cmd = stt.alphabet.search stt.abortKeyword (stripText text) := by
  obtain ⟨said, flag⟩ := send_eq_some sent
  rw [Settings.isAbort, alphabet, keyword, said, flag, Bool.or_self]

theorem delimited_sent {stt : SttService} (nonempty : stt.abortKeyword.toList ≠ [])
    (delimited : Delimited stt.alphabet stt.abortKeyword.toList (stripText text).toList) :
    ∃ cmd, stt.send text = some cmd := by
  unfold SttService.send
  split
  · next blank =>
    obtain ⟨before, occ, after, ⟨split, same⟩, -⟩ := delimited
    have lengths := congrArg List.length split
    simp only [blank, String.toList_empty, List.length_nil, List.length_append, same.length_eq]
      at lengths
    exact absurd (List.eq_nil_of_length_eq_zero (by omega)) nonempty
  · exact ⟨_, rfl⟩

/-- Whatever passes for the keyword, said by itself, is heard only as a word. -/
theorem heard_alone {stt : SttService} {settings : Settings} (nonempty : stt.abortKeyword.toList ≠ [])
    (heeded : ∀ text, Heeded stt settings text) {occ : List Char}
    (same : List.Forall₂ (stt.alphabet.same · ·) occ stt.abortKeyword.toList) :
    occ.head?.any stt.alphabet.isWord = true ∧ occ.getLast?.any stt.alphabet.isWord = true := by
  have alone : Delimited stt.alphabet stt.abortKeyword.toList (String.ofList occ).toList := by
    rw [String.toList_ofList]
    exact ⟨[], occ, [], ⟨by simp, same⟩, rfl, rfl⟩
  obtain ⟨cmd, sent, flagged, -⟩ := (heeded (String.ofList occ)).heard alone
  have found := (send_eq_some sent).2.symm.trans flagged
  obtain ⟨left, right, split, -⟩ := strip_parts occ
  have stripped : (stripText (String.ofList occ)).toList = strip occ := by simp [stripText]
  have lengths := congrArg List.length split
  simp only [List.length_append, same.length_eq] at lengths
  obtain ⟨whole, starts, stops⟩ := found_alone nonempty (by rw [stripped]; omega) found
  -- nothing was stripped
  rw [stripped] at whole starts stops
  obtain rfl : left = [] := List.eq_nil_of_length_eq_zero (by omega)
  obtain rfl : right = [] := List.eq_nil_of_length_eq_zero (by omega)
  have itself : occ = strip occ := by simpa using split
  rw [← itself] at starts stops
  exact ⟨starts, stops⟩

/-- Every utterance is heeded exactly when the keyword begins and ends with a word
character, in whatever case it is said; one that does not is missed where it is said by
itself. -/
theorem abort_heeded_iff {a : Alphabet} (engine : Engine a) {configured : String} {maxSteps : Int}
    {stt : SttService} {settings : Settings} (sends : SttService.init? a configured = some stt)
    (receives : orchestrator? a configured maxSteps = some settings) :
    (∀ text, Heeded stt settings text) ↔ Worded a stt.abortKeyword.toList := by
  obtain ⟨rfl, alphabet, keyword, nonempty, stripped⟩ := started sends receives
  have itself (chars : List Char) : List.Forall₂ (stt.alphabet.same · ·) chars chars :=
    List.forall₂_same.mpr fun c _ => engine.same_self c
  constructor
  · intro heeded
    constructor
    · intro p head c passes
      obtain ⟨rest, split⟩ := List.head?_eq_some_iff.mp head
      have variant : List.Forall₂ (stt.alphabet.same · ·) (c :: rest) stt.abortKeyword.toList := by
        rw [split]
        exact .cons passes (itself rest)
      simpa using (heard_alone nonempty heeded variant).1
    · intro p last c passes
      obtain ⟨rest, split⟩ := List.getLast?_eq_some_iff.mp last
      have variant : List.Forall₂ (stt.alphabet.same · ·) (rest ++ [c]) stt.abortKeyword.toList := by
        rw [split]
        exact List.rel_append (itself rest) (.cons passes .nil)
      simpa using (heard_alone nonempty heeded variant).2
  · intro worded text
    constructor
    case heard =>
      intro delimited
      have inner := delimited_strip engine nonempty worded delimited
      have found := delimited_found engine nonempty worded inner
      obtain ⟨cmd, sent⟩ := delimited_sent nonempty inner
      refine ⟨cmd, sent, (send_eq_some sent).2.trans found, ?_⟩
      rw [onCommand_eq, isAbort_sent alphabet keyword sent, found, if_pos rfl]
    case spared =>
      intro embedded cmd sent
      have missed := embedded_missed nonempty worded (embedded_strip engine embedded)
      refine ⟨(send_eq_some sent).2.trans missed, ?_⟩
      rw [onCommand_eq, isAbort_sent alphabet keyword sent, missed, if_neg Bool.false_ne_true]
    case agree =>
      intro cmd sent
      obtain ⟨said, flag⟩ := send_eq_some sent
      rw [alphabet, keyword, said, flag]

end

/-- ASCII's letters and digits are such an engine, on ASCII. -/
theorem ascii_engine : Engine asciiAlphabet where
  spaces := by
    intro c space
    by_contra word
    have number : c.toNat = c.val.toNat := rfl
    simp only [asciiAlphabet, Char.isAlphanum, Char.isAlpha, Char.isUpper, Char.isLower, Char.isDigit,
      Bool.not_eq_false, Bool.or_eq_true, Bool.and_eq_true, decide_eq_true_eq, beq_iff_eq,
      UInt32.le_iff_toNat_le, ge_iff_le] at word
    simp only [isSpace, Bool.or_eq_true, Bool.and_eq_true, decide_eq_true_eq] at space
    rcases word with ((⟨low, high⟩ | ⟨low, high⟩) | ⟨low, high⟩) | rfl
    · simp at low high
      omega
    · simp at low high
      omega
    · simp at low high
      omega
    · simp at space
  same_self c := by simp [asciiAlphabet]
  folds letter letter' same := by simp [asciiAlphabet, letter, letter', same]

theorem ascii_letter {p : Char} (word : asciiAlphabet.isWord p = true) : asciiAlphabet.Letter p := by
  intro c same
  simp only [asciiAlphabet, Bool.or_eq_true, beq_iff_eq, Bool.and_eq_true] at same
  rcases same with rfl | ⟨⟨letter, -⟩, -⟩
  · exact word
  · simp [asciiAlphabet, Char.isAlphanum, letter]

/-- `abort` in an utterance, in capitals. -/
theorem abort_heeded_iff_default :
    ∃ stt settings, SttService.init? asciiAlphabet " abort" = some stt ∧
      orchestrator? asciiAlphabet " abort" 10 = some settings ∧
      Heeded stt settings "please ABORT, now" := by
  have worded : Worded asciiAlphabet "abort".toList := by
    constructor
    · rintro _ ⟨⟩
      exact ascii_letter (by decide)
    · rintro _ ⟨⟩
      exact ascii_letter (by decide)
  exact ⟨⟨asciiAlphabet, "abort"⟩,
    { alphabet := asciiAlphabet, abortKeyword := "abort", maxSteps := 10 }, rfl, rfl,
    (@abort_heeded_iff _ ascii_engine " abort" 10 _ _ rfl rfl).mpr worded _⟩

/-- `stop!` is configured and said, and not flagged. -/
theorem punctuated_keyword_missed : ¬ ∀ (a : Alphabet) (configured text : String) (maxSteps : Int)
    (stt : SttService) (settings : Settings), Engine a →
      SttService.init? a configured = some stt → orchestrator? a configured maxSteps = some settings →
      Heeded stt settings text := by
  intro claimed
  have heeded := claimed asciiAlphabet "stop!" "stop!" 10 _ _ ascii_engine rfl rfl
  obtain ⟨cmd, sent, flagged, -⟩ := heeded.heard
    ⟨[], "stop!".toList, [], ⟨rfl, by decide⟩, rfl, rfl⟩
  have missed : asciiAlphabet.search "stop!" (stripText "stop!") = false := by decide +kernel
  exact Bool.false_ne_true (missed.symm.trans ((send_eq_some sent).2.symm.trans flagged))

end Lexaire.Stt
