import Lexaire.Core.Lines

/-! The lines of a text are the lines of its bytes: UTF-8 keeps the line ends apart from
every other character, so that a file can be cut into lines before it is decoded, and is
a text exactly when each of its lines is one. -/
namespace Lines

/-! ## Cutting at line ends -/

section
variable {α β : Type} {cr lf : α} {t line : List α} {ls : List (List α)}

def Plain (cr lf : α) (line : List α) : Prop := cr ∉ line ∧ lf ∉ line

/-- Universal newlines; a line feed right after a return belongs to it. -/
inductive Cuts (cr lf : α) : List α → List (List α) → Prop where
  | nil : Cuts cr lf [] []
  | last {line : List α} : Plain cr lf line → line ≠ [] → Cuts cr lf line [line]
  | lf {line rest : List α} {others : List (List α)} : Plain cr lf line → Cuts cr lf rest others →
      Cuts cr lf (line ++ lf :: rest) (line :: others)
  | crlf {line rest : List α} {others : List (List α)} : Plain cr lf line → Cuts cr lf rest others →
      Cuts cr lf (line ++ cr :: lf :: rest) (line :: others)
  | cr {line rest : List α} {others : List (List α)} : Plain cr lf line → rest.head? ≠ some lf →
      Cuts cr lf rest others → Cuts cr lf (line ++ cr :: rest) (line :: others)

def prepend (c : α) : List (List α) → List (List α)
  | [] => [[c]]
  | line :: others => (c :: line) :: others

theorem plain_nil : Plain cr lf [] := ⟨List.not_mem_nil, List.not_mem_nil⟩

theorem plain_cons {c : α} : Plain cr lf (c :: line) ↔ (c ≠ cr ∧ c ≠ lf) ∧ Plain cr lf line := by
  simp only [Plain, List.mem_cons, not_or, Ne, eq_comm (a := c)]
  tauto

theorem plain_append {more : List α} :
    Plain cr lf (line ++ more) ↔ Plain cr lf line ∧ Plain cr lf more := by
  simp only [Plain, List.mem_append, not_or]
  tauto

theorem Cuts.prepend {c : α} (plain : c ≠ cr ∧ c ≠ lf) (cuts : Cuts cr lf t ls) :
    Cuts cr lf (c :: t) (prepend c ls) := by
  cases cuts with
  | nil => exact .last (plain_cons.mpr ⟨plain, plain_nil⟩) (List.cons_ne_nil c [])
  | last rest some => exact .last (plain_cons.mpr ⟨plain, rest⟩) (List.cons_ne_nil c _)
  | lf rest others => exact .lf (plain_cons.mpr ⟨plain, rest⟩) others
  | crlf rest others => exact .crlf (plain_cons.mpr ⟨plain, rest⟩) others
  | cr rest other others => exact .cr (plain_cons.mpr ⟨plain, rest⟩) other others

theorem foldr_prepend (line : List α) (others : List (List α)) :
    line.foldr prepend ([] :: others) = line :: others := by
  induction line with
  | nil => rfl
  | cons c line ih =>
    rw [List.foldr_cons, ih]
    rfl

theorem foldr_prepend_nil (some : line ≠ []) : line.foldr prepend [] = [line] := by
  induction line with
  | nil => exact absurd rfl some
  | cons c line ih =>
    cases line with
    | nil => rfl
    | cons d line =>
      rw [List.foldr_cons, ih (List.cons_ne_nil d line)]
      rfl

/-- An encoding that keeps the line ends and nothing else to themselves. -/
structure Separates (cr lf : α) (cr' lf' : β) (f : α → List β) : Prop where
  different : cr' ≠ lf'
  feed : f lf = [lf']
  ret : f cr = [cr']
  plain : ∀ c, c ≠ cr → c ≠ lf → Plain cr' lf' (f c)
  some : ∀ c, f c ≠ []

section
variable {cr' lf' : β} {f : α → List β}

theorem Separates.flatMap_plain (sep : Separates cr lf cr' lf' f) (plain : Plain cr lf line) :
    Plain cr' lf' (line.flatMap f) := by
  induction line with
  | nil => exact plain_nil
  | cons c line ih =>
    obtain ⟨⟨notReturn, notFeed⟩, plain⟩ := plain_cons.mp plain
    exact plain_append.mpr ⟨sep.plain c notReturn notFeed, ih plain⟩

theorem Separates.flatMap_head [DecidableEq α] (sep : Separates cr lf cr' lf' f)
    (other : t.head? ≠ .some lf) : (t.flatMap f).head? ≠ .some lf' := by
  cases t with
  | nil => simp
  | cons c t =>
    have notFeed : c ≠ lf := fun same => other (congrArg _ same)
    rw [List.flatMap_cons, List.head?_append_of_ne_nil _ (sep.some c)]
    intro head
    have member := List.mem_of_mem_head? head
    by_cases notReturn : c = cr
    · rw [notReturn, sep.ret] at member
      exact sep.different (List.mem_singleton.mp member).symm
    · exact (sep.plain c notReturn notFeed).2 member

theorem Cuts.flatMap [DecidableEq α] (sep : Separates cr lf cr' lf' f) (cuts : Cuts cr lf t ls) :
    Cuts cr' lf' (t.flatMap f) (ls.map (·.flatMap f)) := by
  induction cuts with
  | nil => exact .nil
  | @last line plain some =>
    refine .last (sep.flatMap_plain plain) ?_
    cases line with
    | nil => exact absurd rfl some
    | cons c line => simp [sep.some c]
  | lf plain _ ih =>
    rw [List.flatMap_append, List.flatMap_cons, sep.feed]
    exact .lf (sep.flatMap_plain plain) ih
  | crlf plain _ ih =>
    rw [List.flatMap_append, List.flatMap_cons, List.flatMap_cons, sep.feed, sep.ret]
    exact .crlf (sep.flatMap_plain plain) ih
  | cr plain other _ ih =>
    rw [List.flatMap_append, List.flatMap_cons, sep.ret]
    exact .cr (sep.flatMap_plain plain) (sep.flatMap_head other) ih
end

variable [DecidableEq α]

def split (cr lf : α) : Bool → List α → List (List α)
  | _, [] => []
  | returned, c :: rest =>
    if c = lf then if returned then split cr lf false rest else [] :: split cr lf false rest
    else if c = cr then [] :: split cr lf true rest
    else prepend c (split cr lf false rest)

theorem split_of_head (other : t.head? ≠ some lf) (returned : Bool) :
    split cr lf returned t = split cr lf false t := by
  cases t with
  | nil => cases returned <;> rfl
  | cons c t =>
    have differs : c ≠ lf := fun same => other (congrArg some same)
    simp only [split, if_neg differs]

theorem cuts_split (t : List α) : Cuts cr lf t (split cr lf false t) := by
  have both : Cuts cr lf t (split cr lf false t) ∧
      Cuts cr lf (cr :: t) ([] :: split cr lf true t) := by
    induction t with
    | nil => exact ⟨.nil, .cr plain_nil (by simp) .nil⟩
    | cons c t ih =>
      by_cases feed : c = lf
      · subst c
        have line : Cuts cr lf (lf :: t) ([] :: split cr lf false t) := .lf plain_nil ih.1
        have pair : Cuts cr lf (cr :: lf :: t) ([] :: split cr lf false t) := .crlf plain_nil ih.1
        simp only [split, if_true, Bool.false_eq_true, if_false]
        exact ⟨line, pair⟩
      · have here : Cuts cr lf (c :: t) (split cr lf false (c :: t)) := by
          simp only [split, if_neg feed]
          split
          · next same =>
            subst c
            exact ih.2
          · next other => exact ih.1.prepend ⟨other, feed⟩
        have head : (c :: t).head? ≠ some lf := fun same => feed (Option.some.inj same)
        rw [split_of_head head true]
        exact ⟨here, .cr plain_nil head here⟩
  exact both.1

theorem split_append (plain : Plain cr lf line) (rest : List α) :
    split cr lf false (line ++ rest) = line.foldr prepend (split cr lf false rest) := by
  induction line with
  | nil => rfl
  | cons c line ih =>
    obtain ⟨⟨notReturn, notFeed⟩, plain⟩ := plain_cons.mp plain
    simp only [List.cons_append, split, if_neg notFeed, if_neg notReturn, List.foldr_cons, ih plain]

theorem split_of_cuts (different : cr ≠ lf) (cuts : Cuts cr lf t ls) : split cr lf false t = ls := by
  induction cuts with
  | nil => rfl
  | last plain some =>
    have whole := split_append plain []
    rw [List.append_nil] at whole
    exact whole.trans (foldr_prepend_nil some)
  | lf plain _ ih =>
    rw [split_append plain, split, if_pos rfl, ih]
    exact foldr_prepend _ _
  | crlf plain _ ih =>
    rw [split_append plain, split, if_neg different, if_pos rfl, split, if_pos rfl, if_pos rfl, ih]
    exact foldr_prepend _ _
  | cr plain other _ ih =>
    rw [split_append plain, split, if_neg different, if_pos rfl, split_of_head other, ih]
    exact foldr_prepend _ _

end

/-! ## Text -/

variable {t : List Char} {ls : List (List Char)} {bytes : List UInt8}

theorem translate_append {line : List Char} (none : '\r' ∉ line) (rest : List Char) :
    translate (line ++ rest) = line ++ translate rest := by
  induction line with
  | nil => rfl
  | cons c line ih =>
    have other : c ≠ '\r' := by
      rintro rfl
      exact none List.mem_cons_self
    have rest := ih fun member => none (List.mem_cons_of_mem c member)
    rw [List.cons_append, translate, rest, List.cons_append]
    · exact fun _ same => absurd same other
    · exact fun same => absurd same other

theorem lines_of_cuts (cuts : Cuts '\r' '\n' t ls) : lines (translate t) = ls := by
  induction cuts with
  | nil => rfl
  | last plain some => rw [translate_of_no_return plain.1, lines_last plain.2 some]
  | lf plain _ ih =>
    rw [translate_append plain.1, translate, lines_cons_line plain.2, ih]
    · simp
    · simp
  | crlf plain _ ih => rw [translate_append plain.1, translate, lines_cons_line plain.2, ih]
  | cr plain other _ ih =>
    rw [translate_append plain.1, translate, lines_cons_line plain.2, ih]
    rintro rest' rfl
    exact other rfl

/-- Python's decoding of a line or a file. -/
def decode (bytes : List UInt8) : Option (List Char) :=
  (String.fromUTF8? ⟨bytes.toArray⟩).map (·.toList)

def encode (t : List Char) : List UInt8 := t.flatMap String.utf8EncodeChar

theorem decode_eq_some_iff : decode bytes = some t ↔ bytes = encode t := by
  have same : (⟨bytes.toArray⟩ : ByteArray) = bytes.toByteArray := by
    ext1
    simp
  rw [decode, same, String.fromUTF8?]
  constructor
  · intro decoded
    split at decoded
    · next valid =>
      obtain rfl := Option.some.inj decoded
      have back : (String.fromUTF8 bytes.toByteArray valid).toList.utf8Encode = bytes.toByteArray :=
        String.utf8Encode_toList
      exact (List.toByteArray_inj.mp back).symm
    · cases decoded
  · rintro rfl
    have valid : (encode t).toByteArray.IsValidUTF8 := ⟨t, rfl⟩
    rw [dif_pos valid]
    have whole : String.fromUTF8 (encode t).toByteArray valid = String.ofList t := rfl
    rw [whole, Option.map_some, String.toList_ofList]

/-- A byte of an encoding is the whole of it or no ASCII character. -/
theorem utf8EncodeChar_bytes {c : Char} {b : UInt8} (member : b ∈ String.utf8EncodeChar c) :
    128 ≤ b.toNat ∨ b.toNat = c.toNat := by
  have value : c.toNat = c.val.toNat := rfl
  simp only [String.utf8EncodeChar] at member
  split at member
  · obtain rfl := List.mem_singleton.mp member
    right
    rw [UInt8.toNat_ofNat']
    omega
  · left
    have large (n k : Nat) (big : 128 ≤ k) (small : n + k < 256) : 128 ≤ (UInt8.ofNat (n + k)).toNat := by
      rw [UInt8.toNat_ofNat', Nat.mod_eq_of_lt small]
      omega
    split at member
    · simp only [List.mem_cons, List.not_mem_nil, or_false] at member
      rcases member with rfl | rfl
      · exact large _ _ (by decide) (by omega)
      · exact large _ _ (by decide) (by omega)
    · split at member
      · simp only [List.mem_cons, List.not_mem_nil, or_false] at member
        rcases member with rfl | rfl | rfl
        · exact large _ _ (by decide) (by omega)
        · exact large _ _ (by decide) (by omega)
        · exact large _ _ (by decide) (by omega)
      · simp only [List.mem_cons, List.not_mem_nil, or_false] at member
        rcases member with rfl | rfl | rfl | rfl
        · exact large _ _ (by decide) (by omega)
        · exact large _ _ (by decide) (by omega)
        · exact large _ _ (by decide) (by omega)
        · exact large _ _ (by decide) (by omega)

theorem utf8EncodeChar_plain {c : Char} (notReturn : c ≠ '\r') (notFeed : c ≠ '\n') :
    Plain 13 10 (String.utf8EncodeChar c) := by
  constructor
  · intro member
    rcases utf8EncodeChar_bytes member with large | same
    · exact absurd large (by decide)
    · exact notReturn (Char.toNat_inj.mp same.symm)
  · intro member
    rcases utf8EncodeChar_bytes member with large | same
    · exact absurd large (by decide)
    · exact notFeed (Char.toNat_inj.mp same.symm)

theorem separates_utf8 : Separates '\r' '\n' 13 10 String.utf8EncodeChar where
  different := by decide
  feed := rfl
  ret := rfl
  plain _ := utf8EncodeChar_plain
  some _ := String.utf8EncodeChar_ne_nil

/-- The lines of a file, as it is on disk. -/
def ofFile (bytes : List UInt8) : List (List UInt8) := split 13 10 false bytes

/-- The lines of a file that is a text. -/
theorem ofFile_encode (t : List Char) : ofFile (encode t) = (lines (translate t)).map encode := by
  have cuts : Cuts '\r' '\n' t (split '\r' '\n' false t) := cuts_split t
  rw [lines_of_cuts cuts]
  exact split_of_cuts separates_utf8.different (cuts.flatMap separates_utf8)

theorem decode_append {more : List UInt8} {u : List Char} (first : decode bytes = some t)
    (second : decode more = some u) : decode (bytes ++ more) = some (t ++ u) := by
  rw [decode_eq_some_iff] at first second ⊢
  rw [first, second]
  exact List.flatMap_append.symm

/-- A file whose lines are texts is a text. -/
theorem decode_isSome_of_lines (texts : ∀ line ∈ ofFile bytes, (decode line).isSome = true) :
    (decode bytes).isSome = true := by
  have joined {b more : List UInt8} (first : (decode b).isSome = true)
      (second : (decode more).isSome = true) : (decode (b ++ more)).isSome = true := by
    obtain ⟨t, first⟩ := Option.isSome_iff_exists.mp first
    obtain ⟨u, second⟩ := Option.isSome_iff_exists.mp second
    rw [decode_append first second]
    rfl
  have ended (e : List Char) : (decode (encode e)).isSome = true := by
    rw [decode_eq_some_iff.mpr rfl]
    rfl
  have cuts : Cuts 13 10 bytes (ofFile bytes) := cuts_split bytes
  generalize ofFile bytes = ls at cuts texts
  induction cuts with
  | nil => exact ended []
  | last => exact texts _ List.mem_cons_self
  | @lf line rest others _ _ ih =>
    simp only [List.forall_mem_cons] at texts
    exact joined texts.1 (joined (b := [10]) (ended ['\n']) (ih texts.2))
  | @crlf line rest others _ _ ih =>
    simp only [List.forall_mem_cons] at texts
    exact joined texts.1 (joined (b := [13, 10]) (ended ['\r', '\n']) (ih texts.2))
  | @cr line rest others _ _ _ ih =>
    simp only [List.forall_mem_cons] at texts
    exact joined texts.1 (joined (b := [13]) (ended ['\r']) (ih texts.2))

end Lines
