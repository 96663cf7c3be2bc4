import Mathlib.Algebra.Ring.Nat
import Mathlib.Data.List.Basic

/-! How a POSIX shell reads a text as one simple command: token recognition with quoting,
redirections and comments. A text whose reading is left to expansions of parameters or
commands, or that POSIX leaves unspecified, is not read. -/
namespace Shell

/-! ## Words -/

structure Piece where
  char : Char
  quoted : Bool
deriving DecidableEq

abbrev Word := List Piece

def Word.text (w : Word) : List Char := w.map (·.char)

def bare (t : List Char) : Word := t.map (⟨·, false⟩)

def quoted (t : List Char) : Word := t.map (⟨·, true⟩)

/-- The tilde-prefix ends at an unquoted slash, and nothing in it is quoted. -/
def Word.hasTilde : Word → Bool
  | ⟨'~', false⟩ :: rest => (rest.takeWhile (· ≠ ⟨'/', false⟩)).all (!·.quoted)
  | _ => false

/-- After `[`: an element, and then the closing bracket in the same part of the path. -/
def Word.closesBracket (w : Word) : Bool :=
  let elements := match w with
    | ⟨'!', false⟩ :: rest => rest
    | _ => w
  match elements with
  | [] => false
  | first :: rest => first.char ≠ '/' && (rest.takeWhile (·.char ≠ '/')).contains ⟨']', false⟩

def Word.isPattern : Word → Bool
  | [] => false
  | ⟨c, q⟩ :: rest =>
    (!q && (c = '*' || c = '?' || (c = '[' && Word.closesBracket rest))) || Word.isPattern rest

/-- Tilde and pathname expansion depend on what is around the shell. -/
def Word.isOpen (w : Word) : Bool := w.hasTilde || w.isPattern

/-! ## Tokens -/

inductive Token where
  | word (w : Word)
  | redirect (fd : List Char) (op : String)
  | control (c : Char)
deriving DecidableEq

/-- What is left of an unfinished token outside of quotes. -/
inductive Pending where
  | gap
  | word (w : Word)
  | redirect (fd : List Char) (op : String)
deriving DecidableEq

inductive Mode where
  | plain (p : Pending)
  | escaped (p : Pending)
  | single (w : Word)
  | double (w : Word)
  | doubleEscaped (w : Word)
  | comment
deriving DecidableEq

def isBlank (c : Char) : Bool := c = ' ' || c = '\t'

def isControl (c : Char) : Bool := c = '\n' || c = '&' || c = '(' || c = ')' || c = ';' || c = '|'

def isRedirect (c : Char) : Bool := c = '<' || c = '>'

/-- Where an expansion of a parameter or a command begins. -/
def isExpansion (c : Char) : Bool := c = '$' || c.toNat = 96

def isQuote (c : Char) : Bool := c = '\'' || c = '"' || c = '\\'

/-- Stands for itself outside of quotes. -/
def isOrdinary (c : Char) : Bool :=
  !(isBlank c || isControl c || isRedirect c || isExpansion c || isQuote c)

def redirections : List String := ["<<", "<<-", "<&", "<>", ">>", ">&", ">|"]

/-- The word that goes on. -/
def Pending.started : Pending → Word
  | .word w => w
  | _ => []

/-- The operator that ends where a word goes on. -/
def Pending.before : Pending → List Token
  | .redirect fd op => [.redirect fd op]
  | _ => []

def Pending.isBetween : Pending → Bool
  | .word _ => false
  | _ => true

def Pending.tokens : Pending → List Token
  | .gap => []
  | .word w => [.word w]
  | .redirect fd op => [.redirect fd op]

/-- Digits right before a redirection are its descriptor. -/
def Pending.redirected (op : String) : Pending → List Token × Mode
  | .word w =>
    if !w.isEmpty && w.all fun p => !p.quoted && p.char.isDigit then
      ([], .plain (.redirect w.text op))
    else ([.word w], .plain (.redirect [] op))
  | p => (p.tokens, .plain (.redirect [] op))

/-- A character outside of quotes that is no part of the operator before it. -/
def Pending.step (p : Pending) (c : Char) : Option (List Token × Mode) :=
  if isBlank c then some (p.tokens, .plain .gap)
  else if isControl c then some (p.tokens ++ [.control c], .plain .gap)
  else if isRedirect c then some (p.redirected (String.singleton c))
  else if isExpansion c then none
  else if c = '\\' then some ([], .escaped p)
  else if c = '\'' then some (p.before, .single p.started)
  else if c = '"' then some (p.before, .double p.started)
  else if c = '#' && p.isBetween then some (p.tokens, .comment)
  else some (p.before, .plain (.word (p.started ++ [⟨c, false⟩])))

def Mode.step : Mode → Char → Option (List Token × Mode)
  | .plain (.redirect fd op), c =>
    if op.push c ∈ redirections then some ([], .plain (.redirect fd (op.push c)))
    else Pending.step (.redirect fd op) c
  | .plain p, c => p.step c
  | .escaped p, c =>
    if c = '\n' then some ([], .plain p)
    else some (p.before, .plain (.word (p.started ++ [⟨c, true⟩])))
  | .single w, c =>
    if c = '\'' then some ([], .plain (.word w)) else some ([], .single (w ++ [⟨c, true⟩]))
  | .double w, c =>
    if c = '"' then some ([], .plain (.word w))
    else if isExpansion c then none
    else if c = '\\' then some ([], .doubleEscaped w)
    else some ([], .double (w ++ [⟨c, true⟩]))
  | .doubleEscaped w, c =>
    if c = '\n' then some ([], .double w)
    else if isExpansion c || c = '"' || c = '\\' then some ([], .double (w ++ [⟨c, true⟩]))
    else some ([], .double (w ++ [⟨'\\', true⟩, ⟨c, true⟩]))
  | .comment, c =>
    if c = '\n' then some ([.control c], .plain .gap) else some ([], .comment)

/-- Quotes are closed at the end of a text. -/
def Mode.finish : Mode → Option (List Token)
  | .plain p => some p.tokens
  | .comment => some []
  | _ => none

def scan (m : Mode) : List Char → Option (List Token × Mode)
  | [] => some ([], m)
  | c :: rest => do
    let (first, m) ← m.step c
    let (others, m) ← scan m rest
    return (first ++ others, m)

def tokens (m : Mode) (t : List Char) : Option (List Token) := do
  let (first, m) ← scan m t
  return first ++ (← m.finish)

/-! ## Commands -/

structure Redirection where
  fd : List Char
  op : String
  target : Word
deriving DecidableEq

def Redirection.tokens (r : Redirection) : List Token := [.redirect r.fd r.op, .word r.target]

/-- A simple command. -/
structure Command where
  words : List Word := []
  redirections : List Redirection := []
deriving DecidableEq

/-- One command and no operator that begins another. -/
def command : List Token → Option Command
  | [] => some {}
  | .word w :: rest => (command rest).map fun c => { c with words := w :: c.words }
  | .redirect fd op :: .word target :: rest =>
    (command rest).map fun c => { c with redirections := ⟨fd, op, target⟩ :: c.redirections }
  | _ => none

def parse (t : String) : Option Command := do command (← tokens (.plain .gap) t.toList)

/-- What tilde and pathname expansion make of an open word. -/
abbrev Surroundings := Word → List String

def Word.fields (around : Surroundings) (w : Word) : List String :=
  if w.isOpen then around w else [String.ofList w.text]

def Command.arguments (around : Surroundings) (c : Command) : List String :=
  c.words.flatMap (Word.fields around)

/-- How a character is written between single quotes. -/
def escape (c : Char) : List Char := if c = '\'' then ['\'', '\\', '\'', '\''] else [c]

/-! ## Reading in pieces -/

section
variable {m m' : Mode} {s t : List Char} {ts first : List Token} {w : Word}

theorem scan_cons {c : Char} : scan m (c :: t) =
    (m.step c).bind fun r => (scan r.2 t).map fun q => (r.1 ++ q.1, q.2) := by
  simp only [scan, Option.bind_eq_bind, Option.pure_def, Option.map_eq_bind]
  rfl

theorem scan_cons_some {c : Char} (read : scan m (c :: t) = some (ts, m')) :
    ∃ first m₁ others, m.step c = some (first, m₁) ∧ scan m₁ t = some (others, m') ∧
      ts = first ++ others := by
  rw [scan_cons, Option.bind_eq_some_iff] at read
  obtain ⟨⟨first, m₁⟩, one, read⟩ := read
  obtain ⟨⟨others, m₂⟩, more, same⟩ := Option.map_eq_some_iff.mp read
  obtain ⟨rfl, rfl⟩ := Prod.mk.inj same
  exact ⟨first, m₁, others, one, more, rfl⟩

theorem scan_append : scan m (s ++ t) =
    (scan m s).bind fun r => (scan r.2 t).map fun q => (r.1 ++ q.1, q.2) := by
  induction s generalizing m with
  | nil => simp [scan]
  | cons c s ih =>
    rw [List.cons_append, scan_cons, scan_cons]
    cases m.step c with
    | none => rfl
    | some r =>
      simp only [Option.bind_some, ih]
      cases scan r.2 s with
      | none => rfl
      | some q => simp [Function.comp_def, List.append_assoc]

theorem tokens_append (read : scan m s = some (first, m')) :
    tokens m (s ++ t) = (tokens m' t).map (first ++ ·) := by
  simp only [tokens, scan_append, read, Option.bind_some, Option.bind_eq_bind]
  cases scan m' t with
  | none => rfl
  | some r => cases finished : r.2.finish <;> simp [finished]

theorem scan_escape (c : Char) :
    scan (.single w) (escape c) = some ([], .single (w ++ [⟨c, true⟩])) := by
  unfold escape
  split
  · next quote =>
    rw [quote]
    rfl
  · next other => simp [scan, Mode.step, other]

/-- Between single quotes an escaped text stands for itself. -/
theorem scan_escaped (t : List Char) :
    scan (.single w) (t.flatMap escape) = some ([], .single (w ++ quoted t)) := by
  induction t generalizing w with
  | nil => simp [scan, quoted]
  | cons c t ih =>
    rw [List.flatMap_cons, scan_append, scan_escape, Option.bind_some, ih]
    simp [quoted]

/-! ## Bare words -/

theorem Pending.step_ordinary {p : Pending} {c : Char} (ordinary : isOrdinary c = true)
    (inside : p.isBetween = true → c ≠ '#') :
    p.step c = some (p.before, .plain (.word (p.started ++ [⟨c, false⟩]))) := by
  simp only [isOrdinary, isQuote, Bool.not_eq_true', Bool.or_eq_false_iff, decide_eq_false_iff_not]
    at ordinary
  obtain ⟨⟨⟨⟨blank, control⟩, redirect⟩, expansion⟩, ⟨single, double⟩, escape⟩ := ordinary
  have comment : (decide (c = '#') && p.isBetween) = false := by
    cases between : p.isBetween with
    | false => simp
    | true => simp [inside between]
  simp [step, blank, control, redirect, expansion, single, double, escape, comment]

/-! ## No character is read twice -/

def Token.size : Token → Nat
  | .word w => w.length
  | _ => 0

def size (ts : List Token) : Nat := (ts.map Token.size).sum

def Pending.size (p : Pending) : Nat := p.started.length

def Mode.size : Mode → Nat
  | .plain p | .escaped p => p.size
  | .single w | .double w => w.length
  | .doubleEscaped w => w.length + 1
  | .comment => 0

@[simp] theorem size_nil : Shell.size [] = 0 := rfl

@[simp] theorem size_append (a b : List Token) :
    Shell.size (a ++ b) = Shell.size a + Shell.size b := by
  simp [Shell.size]

@[simp] theorem Pending.size_tokens (p : Pending) : Shell.size p.tokens = p.size := by
  cases p <;> rfl

@[simp] theorem Pending.size_before (p : Pending) : Shell.size p.before = 0 := by
  cases p <;> rfl

theorem Pending.size_redirected (p : Pending) (op : String) :
    Shell.size (p.redirected op).1 + (p.redirected op).2.size ≤ p.size := by
  cases p with
  | gap => exact Nat.le_refl 0
  | redirect fd op' => exact Nat.le_refl 0
  | word w =>
    simp only [redirected]
    split
    · exact Nat.zero_le _
    · exact Nat.le_refl w.length

theorem Pending.size_of_not_ordinary {p : Pending} {c : Char} (special : isOrdinary c = false)
    (read : p.step c = some (ts, m)) : Shell.size ts + m.size ≤ p.size := by
  unfold step at read
  split at read
  · cases read
    simp only [size_tokens, Mode.size]
    exact Nat.le_refl _
  split at read
  · cases read
    simp only [size_append, size_tokens, Mode.size]
    exact Nat.le_refl _
  split at read
  · have small := p.size_redirected (String.singleton c)
    rw [Option.some.inj read] at small
    exact small
  split at read
  · cases read
  split at read
  · cases read
    simp [Mode.size]
  split at read
  · cases read
    simp [Mode.size, Pending.size]
  split at read
  · cases read
    simp [Mode.size, Pending.size]
  · simp_all [isOrdinary, isQuote]

/-- Outside of quotes only an ordinary character comes to stand in a word. -/
theorem Pending.step_cases {p : Pending} {c : Char} (read : p.step c = some (ts, m)) :
    ((isOrdinary c = true ∧ (p.isBetween = true → c ≠ '#')) ∧
      ts = p.before ∧ m = .plain (.word (p.started ++ [⟨c, false⟩]))) ∨
    Shell.size ts + m.size ≤ p.size := by
  cases special : isOrdinary c with
  | false => exact .inr (size_of_not_ordinary special read)
  | true =>
    by_cases comment : c = '#' ∧ p.isBetween = true
    · right
      obtain ⟨rfl, between⟩ := comment
      have skipped : p.step '#' = some (p.tokens, .comment) := by
        simp [step, between, isBlank, isControl, isRedirect, isExpansion]
      cases skipped.symm.trans read
      simp [Mode.size]
    · left
      have inside : p.isBetween = true → c ≠ '#' := fun between same => comment ⟨same, between⟩
      cases (step_ordinary special inside).symm.trans read
      exact ⟨⟨rfl, inside⟩, rfl, rfl⟩

theorem Pending.step_size {p : Pending} {c : Char} (read : p.step c = some (ts, m)) :
    Shell.size ts + m.size ≤ p.size + 1 := by
  obtain ⟨-, rfl, rfl⟩ | less := step_cases read
  · simp [Mode.size, Pending.size, started]
  · exact Nat.le_succ_of_le less

theorem Mode.step_size {c : Char} (read : m.step c = some (ts, m')) :
    Shell.size ts + m'.size ≤ m.size + 1 := by
  unfold step at read
  split at read
  · split at read
    · cases read
      exact Nat.zero_le _
    · exact Pending.step_size read
  · exact Pending.step_size read
  · split at read
    · cases read
      simp [Mode.size]
    · cases read
      simp [Mode.size, Pending.size, Pending.started]
  · split at read <;> cases read <;> simp [Mode.size, Pending.size, Pending.started]
  · split at read
    · cases read
      simp [Mode.size, Pending.size, Pending.started]
    split at read
    · cases read
    split at read <;> cases read <;> simp [Mode.size]
  · split at read
    · cases read
      simp [Mode.size]
      omega
    split at read <;> cases read <;> simp [Mode.size]
  · split at read <;> cases read <;> simp [Mode.size, Shell.size, Token.size, Pending.size, Pending.started]

theorem scan_size (read : scan m t = some (ts, m')) : size ts + m'.size ≤ m.size + t.length := by
  induction t generalizing m ts with
  | nil =>
    cases read
    simp
  | cons c t ih =>
    obtain ⟨first, m₁, others, one, more, rfl⟩ := scan_cons_some read
    have small := Mode.step_size one
    have rest := ih more
    simp only [size_append, List.length_cons]
    omega

/-! ## A text that is one bare word -/

/-- Written without quotes, and no comment. -/
def IsBare (t : List Char) : Prop := t ≠ [] ∧ t.all isOrdinary = true ∧ t.head? ≠ some '#'

instance : DecidablePred IsBare := fun t =>
  inferInstanceAs (Decidable (t ≠ [] ∧ t.all isOrdinary = true ∧ t.head? ≠ some '#'))

theorem scan_word (ordinary : ∀ c ∈ t, isOrdinary c = true) :
    scan (.plain (.word w)) t = some ([], .plain (.word (w ++ bare t))) := by
  induction t generalizing w with
  | nil => simp [scan, bare]
  | cons c t ih =>
    obtain ⟨first, others⟩ := List.forall_mem_cons.mp ordinary
    have one : Mode.step (.plain (.word w)) c = some ([], .plain (.word (w ++ [⟨c, false⟩]))) :=
      Pending.step_ordinary first fun between => nomatch between
    rw [scan_cons, one, Option.bind_some, ih others]
    simp [bare]

theorem scan_bare (isBare : IsBare t) : scan (.plain .gap) t = some ([], .plain (.word (bare t))) := by
  obtain ⟨some, ordinary, start⟩ := isBare
  cases t with
  | nil => exact absurd rfl some
  | cons c t =>
    obtain ⟨first, others⟩ := List.forall_mem_cons.mp (List.all_eq_true.mp ordinary)
    have one : Mode.step (.plain .gap) c = .some ([], .plain (.word [⟨c, false⟩])) :=
      Pending.step_ordinary first fun _ same => start (congrArg Option.some same)
    rw [scan_cons, one, Option.bind_some, scan_word others]
    rfl

theorem tokens_bare (isBare : IsBare t) : tokens (.plain .gap) t = some [.word (bare t)] := by
  have all := tokens_append (t := []) (scan_bare isBare)
  rw [List.append_nil] at all
  rw [all]
  rfl

theorem ordinary_of_scan_size (read : scan (.plain (.word w)) t = some (ts, m))
    (all : w.length + t.length ≤ size ts + m.size) : ∀ c ∈ t, isOrdinary c = true := by
  induction t generalizing w ts with
  | nil => exact fun c member => nomatch member
  | cons c t ih =>
    obtain ⟨first, m₁, others, one, more, rfl⟩ := scan_cons_some read
    rw [size_append, List.length_cons] at all
    obtain ⟨⟨ordinary, -⟩, rfl, rfl⟩ | less := Pending.step_cases one
    · have others : ∀ c ∈ t, isOrdinary c = true := by
        apply ih more
        simp only [Pending.before, Pending.started, size_nil, List.length_append,
          List.length_singleton] at all ⊢
        omega
      exact List.forall_mem_cons.mpr ⟨ordinary, others⟩
    · have rest := scan_size more
      have less : size first + m₁.size ≤ w.length := less
      omega

theorem Mode.finish_size (read : m.finish = some ts) : Shell.size ts ≤ m.size := by
  unfold finish at read
  split at read
  · cases read
    exact Nat.le_of_eq (Pending.size_tokens _)
  · cases read
    exact Nat.zero_le _
  · cases read

/-- Where every character comes to stand in a word, the text is that word. -/
theorem bare_of_tokens (read : tokens (.plain .gap) t = some ts) (some : t ≠ [])
    (all : t.length ≤ size ts) : IsBare t := by
  simp only [tokens, Option.bind_eq_bind, Option.pure_def, Option.bind_eq_some_iff] at read
  obtain ⟨⟨first, m⟩, scanned, last, finished, read⟩ := read
  cases read
  have short : size last ≤ m.size := Mode.finish_size finished
  rw [size_append] at all
  cases t with
  | nil => exact absurd rfl some
  | cons c t =>
    obtain ⟨one, m₁, others, step, more, rfl⟩ := scan_cons_some scanned
    rw [size_append, List.length_cons] at all
    obtain ⟨⟨ordinary, inside⟩, rfl, rfl⟩ | less := Pending.step_cases step
    · have rest : ∀ c ∈ t, isOrdinary c = true := by
        apply ordinary_of_scan_size more
        simp only [Pending.before, Pending.started, size_nil, List.length_append,
          List.length_singleton, List.length_nil] at all ⊢
        omega
      refine ⟨some, List.all_eq_true.mpr (List.forall_mem_cons.mpr ⟨ordinary, rest⟩), ?_⟩
      exact fun same => inside rfl (Option.some.inj same)
    · have rest := scan_size more
      have less : size one + m₁.size ≤ 0 := less
      omega

/-! ## Commands of bare words -/

theorem tokens_of_command {c : Command} (read : command ts = some c)
    (direct : c.redirections = []) : ts = c.words.map .word := by
  induction ts using command.induct generalizing c with
  | case1 =>
    cases read
    rfl
  | case2 w rest ih =>
    obtain ⟨others, parsed, rfl⟩ := Option.map_eq_some_iff.mp read
    rw [ih parsed direct]
    rfl
  | case3 fd op target rest ih =>
    obtain ⟨others, parsed, rfl⟩ := Option.map_eq_some_iff.mp read
    cases direct
  | case4 ts empty word redirect =>
    cases (command.eq_4 ts empty word redirect).symm.trans read

theorem command_redirections (rs : List Redirection) :
    command (rs.flatMap Redirection.tokens) = some { redirections := rs } := by
  induction rs with
  | nil => rfl
  | cons r rs ih => simp [Redirection.tokens, command, ih]

theorem command_words (ws : List Word) (rs : List Redirection) :
    command (ws.map .word ++ rs.flatMap Redirection.tokens) =
      some { words := ws, redirections := rs } := by
  induction ws with
  | nil => exact command_redirections rs
  | cons w ws ih => simp [command, ih]

@[simp] theorem text_bare (t : List Char) : Word.text (bare t) = t := by
  simp [Word.text, bare, Function.comp_def]

@[simp] theorem text_quoted (t : List Char) : Word.text (quoted t) = t := by
  simp [Word.text, quoted, Function.comp_def]

theorem isPattern_quoted (t : List Char) : Word.isPattern (quoted t) = false := by
  induction t with
  | nil => rfl
  | cons c t ih => exact ih

theorem hasTilde_quoted (t : List Char) : Word.hasTilde (quoted t) = false := by
  unfold Word.hasTilde
  split
  · next tilde => cases t <;> simp [quoted] at tilde
  · rfl

theorem isOpen_quoted (t : List Char) : Word.isOpen (quoted t) = false := by
  rw [Word.isOpen, hasTilde_quoted, isPattern_quoted]
  rfl

/-! ## Fields -/

theorem fields_closed {around : Surroundings} (closed : w.isOpen = false) :
    Word.fields around w = [String.ofList w.text] := by
  rw [Word.fields, closed]
  rfl

theorem fields_open {around : Surroundings} (isOpen : w.isOpen = true) :
    Word.fields around w = around w := by
  rw [Word.fields, isOpen]
  rfl

theorem fields_bare {s : String} {around : Surroundings} (closed : (bare s.toList).isOpen = false) :
    Word.fields around (bare s.toList) = [s] := by
  rw [fields_closed closed, text_bare, String.ofList_toList]

theorem flatMap_fields_bare {around : Surroundings} {args : List String}
    (closed : ∀ s ∈ args, (bare s.toList).isOpen = false) :
    (args.map (bare ·.toList)).flatMap (Word.fields around) = args := by
  induction args with
  | nil => rfl
  | cons s args ih =>
    obtain ⟨first, others⟩ := List.forall_mem_cons.mp closed
    rw [List.map_cons, List.flatMap_cons, fields_bare first, ih others]
    rfl

theorem fields_quoted (s : String) (around : Surroundings) :
    Word.fields around (quoted s.toList) = [s] := by
  rw [fields_closed (isOpen_quoted _), text_quoted, String.ofList_toList]

/-- Where no path matches, an open word stands for itself too. -/
def unmatched : Surroundings := fun w => [String.ofList w.text]

theorem fields_unmatched (w : Word) : Word.fields unmatched w = [String.ofList w.text] := by
  cases isOpen : w.isOpen with
  | false => exact fields_closed isOpen
  | true => exact fields_open isOpen

end

end Shell
