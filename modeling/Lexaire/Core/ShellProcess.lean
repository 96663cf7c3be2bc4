import Lexaire.Core.ShellRun

/-! A text that a shell reads as one word wherever a word may stand, and the process that a
simple command starts: its arguments and the environment that the assignments before it make. -/
namespace Shell

/-! ## Words in a text -/

/-- Ends the word before it. -/
def endsWord (c : Char) : Bool := isBlank c || isControl c || isRedirect c

/-- Wherever it stands outside of quotes, the text adds `w` to the word under way and leaves
nothing else behind. Between words, and before what ends one, it is a word of its own. What
stands before it is read here: nothing is said behind an expansion, and of a text that has one
after it only that neither side is read. -/
structure ReadsAs (text : List Char) (w : Word) : Prop where
  part : ∀ {m : Mode} {before : List Char} {first : List Token} {p : Pending} (after : List Char),
    scan m before = some (first, .plain p) →
    tokens m (before ++ (text ++ after)) =
      (tokens (.plain (.word (p.started ++ w))) after).map ((first ++ p.before) ++ ·)
  whole : ∀ {m : Mode} {before : List Char} {first : List Token} {p : Pending} {after : List Char},
    scan m before = some (first, .plain p) → p.isBetween = true →
    (∀ c ∈ after.head?, endsWord c = true) →
    tokens m (before ++ (text ++ after)) =
      (tokens (.plain .gap) after).map ((first ++ p.before ++ [.word w]) ++ ·)

/-! ## Processes -/

def isName (t : List Char) : Bool :=
  t.all (fun c => c.isAlphanum || c = '_') && t.head?.any (!·.isDigit)

/-- A name and `=`, neither of them quoted, and the value that follows. -/
def Word.assignment? (w : Word) : Option (String × Word) :=
  let name : Word := w.takeWhile (· ≠ ⟨'=', false⟩)
  match w.dropWhile (· ≠ ⟨'=', false⟩) with
  | [] => none
  | _ :: value =>
    if name.all (!·.quoted) && isName name.text then some (String.ofList name.text, value) else none

/-- In a value a tilde may stand for a home at the start and after a colon. -/
def Word.hasTildeAt (start : Bool) : Word → Bool
  | [] => false
  | p :: rest => (start && p = ⟨'~', false⟩) || Word.hasTildeAt (p = ⟨':', false⟩) rest

/-- What is assigned; `home` is what tilde expansion makes of the value. -/
def Word.assigned (home : Word → String) (w : Word) : String :=
  if w.hasTildeAt true then home w else String.ofList w.text

/-- The assignments before the first other word, and the words from there. -/
def leading (home : Word → String) : List Word → Assignments × List Word
  | [] => ([], [])
  | w :: rest =>
    match w.assignment? with
    | some (name, value) =>
      ((name, .literal (value.assigned home)) :: (leading home rest).1, (leading home rest).2)
    | none => ([], w :: rest)

structure Process where
  arguments : List String
  environment : Environment
  redirections : List Redirection

/-- The process that the text starts, where it is one command and that is a program. -/
def System.process? (system : System) (home : Word → String) (env : Environment) (text : String) :
    Option Process :=
  (parse text).bind fun c =>
    let (assignments, words) := leading home c.words
    let arguments := words.flatMap (Word.fields system.around)
    if arguments = [] then none
    else some {
      arguments
      environment := (Execution.ofEnvironment env).prefixed system assignments
      redirections := c.redirections }

section
variable {w value : Word} {t : List Char} {home : Word → String}

theorem push_not_mem_redirections (op : String) {c : Char}
    (other : ∀ r ∈ redirections, r.toList.getLast? ≠ some c) : op.push c ∉ redirections := by
  intro member
  exact other _ member (by simp)

theorem scan_quoted (p : Pending) (t : List Char) :
    scan (.plain p) ('\'' :: t.flatMap escape ++ ['\'']) =
      some (p.before, .plain (.word (p.started ++ quoted t))) := by
  have opens : Mode.step (.plain p) '\'' = some (p.before, .single p.started) := by
    cases p with
    | gap => rfl
    | word w => rfl
    | redirect fd op =>
      rw [Mode.step, if_neg (push_not_mem_redirections op (by decide))]
      rfl
  have closes : scan (.single (p.started ++ quoted t)) ['\''] =
      some ([], .plain (.word (p.started ++ quoted t))) := rfl
  rw [List.cons_append, scan_cons, opens, Option.bind_some, scan_append, scan_escaped,
    Option.bind_some, closes]
  simp

/-- What begins another token leaves a word as it is, unless that is a descriptor. -/
theorem tokens_word_ends {after : List Char} (word : w = [] ∨ ∃ p ∈ w, p.quoted = true)
    (ends : ∀ c ∈ after.head?, endsWord c = true) :
    tokens (.plain (.word w)) after = (tokens (.plain .gap) after).map ([.word w] ++ ·) := by
  cases after with
  | nil => rfl
  | cons c rest =>
    have notDescriptor : (!w.isEmpty && w.all fun p => !p.quoted && p.char.isDigit) = false := by
      rcases word with rfl | ⟨p, member, isQuoted⟩
      · rfl
      · rw [Bool.and_eq_false_iff, List.all_eq_false]
        exact .inr ⟨p, member, by simp [isQuoted]⟩
    have redirected (op : String) :
        (Pending.word w).redirected op = ([.word w], .plain (.redirect [] op)) := by
      rw [Pending.redirected, notDescriptor]
      rfl
    have step : Mode.step (.plain (.word w)) c =
        (Mode.step (.plain .gap) c).map fun r => ([.word w] ++ r.1, r.2) := by
      have ending := ends c rfl
      simp only [endsWord, Bool.or_eq_true] at ending
      simp only [Mode.step, Pending.step]
      rcases ending with (blank | control) | redirect
      · simp [blank, Pending.tokens]
      · cases isBlank c <;> simp [control, Pending.tokens]
      · cases isBlank c <;> cases isControl c <;> simp only [redirect, redirected] <;> rfl
    simp only [tokens, scan_cons, step]
    cases Mode.step (.plain .gap) c with
    | none => rfl
    | some r =>
      cases scanned : scan r.2 rest with
      | none => simp [scanned]
      | some q => cases finished : q.2.finish <;> simp [scanned, finished]

theorem readsAs_quoted (t : List Char) : ReadsAs ('\'' :: t.flatMap escape ++ ['\'']) (quoted t) := by
  have part {m : Mode} {before : List Char} {first : List Token} {p : Pending} (after : List Char)
      (read : scan m before = some (first, .plain p)) :
      tokens m (before ++ ('\'' :: t.flatMap escape ++ ['\''] ++ after)) =
        (tokens (.plain (.word (p.started ++ quoted t))) after).map ((first ++ p.before) ++ ·) := by
    rw [tokens_append read, tokens_append (scan_quoted p t), Option.map_map]
    simp only [Function.comp_def, List.append_assoc]
  refine ⟨part, fun {m before first p after} read between ends => ?_⟩
  have word : quoted t = [] ∨ ∃ p ∈ quoted t, p.quoted = true := by
    cases t with
    | nil => exact .inl rfl
    | cons c t => exact .inr ⟨⟨c, true⟩, by simp [quoted], rfl⟩
  have begun : p.started = [] := by
    cases p with
    | gap => rfl
    | redirect fd op => rfl
    | word w => cases between
  rw [part after read, begun, List.nil_append, tokens_word_ends word ends, Option.map_map]
  simp only [Function.comp_def, List.append_assoc]

/-! ## Assignments -/

theorem hasTildeAt_eq_false (absent : ⟨'~', false⟩ ∉ w) (start : Bool) :
    Word.hasTildeAt start w = false := by
  induction w generalizing start with
  | nil => rfl
  | cons p w ih =>
    obtain ⟨other, absent⟩ := not_or.mp (mt List.mem_cons.mpr absent)
    simp [Word.hasTildeAt, Ne.symm other, ih absent]

theorem assigned_quoted (t : List Char) : (quoted t).assigned home = String.ofList t := by
  have absent : ⟨'~', false⟩ ∉ quoted t := by simp [quoted]
  rw [Word.assigned, hasTildeAt_eq_false absent, text_quoted]
  rfl

theorem assigned_bare (absent : '~' ∉ t) : (bare t).assigned home = String.ofList t := by
  have absent : ⟨'~', false⟩ ∉ bare t := by simpa [bare] using absent
  rw [Word.assigned, hasTildeAt_eq_false absent, text_bare]
  rfl

theorem assignment?_name {name : List Char} (valid : isName name = true) (value : Word) :
    Word.assignment? (bare name ++ ⟨'=', false⟩ :: value) = some (String.ofList name, value) := by
  have absent : ∀ p ∈ bare name, decide (p ≠ ⟨'=', false⟩) = true := by
    intro p member
    obtain ⟨c, inName, rfl⟩ := List.mem_map.mp member
    have letter := List.all_eq_true.mp (Bool.and_eq_true_iff.mp valid).1 c inName
    have other : c ≠ '=' := by
      rintro rfl
      revert letter
      decide
    simpa using other
  have takes : (bare name ++ ⟨'=', false⟩ :: value).takeWhile (· ≠ ⟨'=', false⟩) = bare name := by
    rw [List.takeWhile_append_of_pos absent, List.takeWhile_cons_of_neg (by simp), List.append_nil]
  have drops : (bare name ++ ⟨'=', false⟩ :: value).dropWhile (· ≠ ⟨'=', false⟩) =
      ⟨'=', false⟩ :: value := by
    rw [List.dropWhile_append_of_pos absent, List.dropWhile_cons_of_neg (by simp)]
  have unquoted : (bare name).all (!·.quoted) = true := by simp [bare]
  simp only [Word.assignment?, takes, drops, unquoted, text_bare, valid, Bool.and_self, if_true]

/-- A word without `=` is no assignment. -/
theorem assignment?_eq_none (absent : ⟨'=', false⟩ ∉ w) : w.assignment? = none := by
  have drops : w.dropWhile (· ≠ ⟨'=', false⟩) = [] := by
    rw [List.dropWhile_eq_nil_iff]
    intro p member
    exact decide_eq_true fun same => absent (same ▸ member)
  rw [Word.assignment?, drops]

theorem leading_assignment {name : List Char} (valid : isName name = true) (value : Word)
    (rest : List Word) :
    leading home ((bare name ++ ⟨'=', false⟩ :: value) :: rest) =
      ((String.ofList name, .literal (value.assigned home)) :: (leading home rest).1,
        (leading home rest).2) := by
  rw [leading, assignment?_name valid]

theorem leading_word (absent : ⟨'=', false⟩ ∉ w) (rest : List Word) :
    leading home (w :: rest) = ([], w :: rest) := by
  rw [leading, assignment?_eq_none absent]

/-! ## Numbers -/

theorem mem_toString_int {n : Int} {c : Char} (member : c ∈ (toString n).toList) :
    c.isDigit = true ∨ c = '-' := by
  cases n with
  | ofNat m =>
    have text : (toString (Int.ofNat m)).toList = Nat.toDigits 10 m := Nat.toList_repr
    exact .inl (toDigits_isDigit m c (text ▸ member))
  | negSucc m =>
    have text : (toString (Int.negSucc m)).toList = '-' :: Nat.toDigits 10 (m + 1) :=
      String.toList_append.trans (congrArg ('-' :: ·) Nat.toList_repr)
    rcases List.mem_cons.mp (text ▸ member) with rfl | digit
    · exact .inr rfl
    · exact .inl (toDigits_isDigit _ c digit)

theorem isOrdinary_of_isDigit {c : Char} (digit : c.isDigit = true) : isOrdinary c = true := by
  have grave : c.toNat ≠ 96 := by
    intro same
    have most : c.toNat ≤ 57 := by
      simp only [Char.isDigit, Bool.and_eq_true, decide_eq_true_eq] at digit
      exact UInt32.le_iff_toNat_le.mp digit.2
    omega
  by_contra special
  simp only [isOrdinary, isBlank, isControl, isRedirect, isExpansion, isQuote, Bool.not_eq_true,
    Bool.not_eq_false', Bool.or_eq_true, decide_eq_true_eq, grave, or_false, or_assoc] at special
  rcases special with rfl | rfl | rfl | rfl | rfl | rfl | rfl | rfl | rfl | rfl | rfl | rfl | rfl |
    rfl <;> cases digit

theorem ordinary_toString_int {n : Int} {c : Char} (member : c ∈ (toString n).toList) :
    isOrdinary c = true := by
  rcases mem_toString_int member with digit | rfl
  · exact isOrdinary_of_isDigit digit
  · rfl

theorem assigned_int (n : Int) : (bare (toString n).toList).assigned home = toString n := by
  have absent : '~' ∉ (toString n).toList := fun member => by
    rcases mem_toString_int member with digit | minus
    · cases digit
    · cases minus
  rw [assigned_bare absent, String.ofList_toList]

end

end Shell
