import Mathlib.Order.Lattice.Nat
import Mathlib.Data.List.Basic
import Lexaire.Config.Nodes

/-! `lexaire::Config` over those nodes. `traverse` walks with a handle that starts
as a copy of the root, so its first assignment redirects the root itself: the
first lookup on a map is the last one that starts at the file's root. -/
namespace Lexaire
open Yaml

/-- What a conversion can tell about a node. -/
inductive Found where
  | undefined
  | null
  | scalar (text : String)
  | map
deriving DecidableEq

def Yaml.Content.found : Content → Found
  | .undefined => .undefined
  | .null => .null
  | .scalar text => .scalar text
  | .map _ => .map

/-- A handle without a cell is what `YAML::Node()` gives: defined, and null. -/
def Yaml.Memory.found (m : Memory) : Option Nat → Found
  | none => .null
  | some cell => (m.contentOf cell).found

/-- The keys of a dotted path; always at least one. -/
def parts (dotted : String) : List String := (dotted.toList.splitOn '.').map String.ofList

/-- The loop of `Config::traverse`, from the handle `cur`. -/
def traverse (m : Memory) (cur : Nat) : List String → Memory × Option Nat
  | [] => (m, some cur)
  | part :: rest =>
    if (m.contentOf cur).isMap then
      let entered := m.enter cur part
      traverse entered.1 entered.2 rest
    else (m, none)

theorem traverse_cons_map {m : Memory} {cur : Nat} (map : (m.contentOf cur).isMap = true)
    (part : String) (rest : List String) :
    traverse m cur (part :: rest) = traverse (m.enter cur part).1 (m.enter cur part).2 rest := by
  simp [traverse, map]

theorem traverse_cons_not_map {m : Memory} {cur : Nat} (scalar : (m.contentOf cur).isMap = false)
    (part : String) (rest : List String) : traverse m cur (part :: rest) = (m, none) := by
  simp [traverse, scalar]

/-- A root handle, the memory behind it and the file's path. -/
structure Config where
  memory : Memory
  root : Nat
  path : String

namespace Config
variable {α : Type}

def load (doc : Document) (path : String) : Config where
  memory := (Yaml.load doc {}).1
  root := (Yaml.load doc {}).2
  path := path

/-- `traverse`, and the object it leaves behind. -/
def walk (cfg : Config) (dotted : String) : Found × Config :=
  let walked := traverse cfg.memory cfg.root (parts dotted)
  (walked.1.found walked.2, { cfg with memory := walked.1 })

/-- `require<T>`, with `as<T>()` as a parameter that gives a value or throws. -/
def require (as : Found → Except String α) (dotted : String) (cfg : Config) :
    Except String α × Config :=
  let (found, cfg) := cfg.walk dotted
  if found = .undefined then (.error ("config missing: " ++ dotted ++ " (from " ++ cfg.path ++ ")"), cfg)
  else
    match as found with
    | .ok x => (.ok x, cfg)
    | .error what => (.error ("config type error at " ++ dotted ++ ": " ++ what), cfg)

/-- `get_or<T>`. -/
def getOr (as : Found → Except String α) (dotted : String) (fallback : α) (cfg : Config) :
    α × Config :=
  let (found, cfg) := cfg.walk dotted
  if found = .undefined then (fallback, cfg)
  else
    match as found with
    | .ok x => (x, cfg)
    | .error _ => (fallback, cfg)

end Config

/-- A call of one of the two getters; `α` covers the types that are asked for. -/
inductive Lookup (α : Type) where
  | require (as : Found → Except String α) (dotted : String)
  | getOr (as : Found → Except String α) (dotted : String) (fallback : α)

variable {α : Type}

def Lookup.run (cfg : Config) : Lookup α → Except String α × Config
  | .require as dotted => cfg.require as dotted
  | .getOr as dotted fallback =>
    let (x, cfg) := cfg.getOr as dotted fallback
    (.ok x, cfg)

/-- The object after some calls. -/
def Config.after (cfg : Config) (made : List (Lookup α)) : Config :=
  made.foldl (fun cfg lookup => (lookup.run cfg).2) cfg

def Lookup.dotted : Lookup α → String
  | .require _ dotted => dotted
  | .getOr _ dotted _ => dotted

theorem Lookup.run_snd (lookup : Lookup α) (cfg : Config) :
    (lookup.run cfg).2 = (cfg.walk lookup.dotted).2 := by
  cases lookup with
  | require as dotted =>
    simp only [run, Config.require, Lookup.dotted]
    split
    · rfl
    · split <;> rfl
  | getOr as dotted fallback =>
    simp only [run, Config.getOr, Lookup.dotted]
    split
    · rfl
    · split <;> rfl

/-- The outcome for what a walk has found. -/
def Lookup.outcome (path : String) (found : Found) : Lookup α → Except String α
  | .require as dotted =>
    if found = .undefined then .error ("config missing: " ++ dotted ++ " (from " ++ path ++ ")")
    else (as found).mapError (fun what => "config type error at " ++ dotted ++ ": " ++ what)
  | .getOr as _ fallback =>
    if found = .undefined then .ok fallback else .ok ((as found).toOption.getD fallback)

/-- A lookup sees the object through its walk alone. -/
theorem Lookup.run_fst (lookup : Lookup α) (cfg : Config) :
    (lookup.run cfg).1 = lookup.outcome cfg.path (cfg.walk lookup.dotted).1 := by
  cases lookup with
  | require as dotted =>
    by_cases undefined : (cfg.walk dotted).1 = .undefined
    · simp only [run, Config.require, Lookup.dotted, outcome, undefined, if_true]
      rfl
    · simp only [run, Config.require, Lookup.dotted, outcome, undefined, if_false]
      cases as (cfg.walk dotted).1 <;> rfl
  | getOr as dotted fallback =>
    by_cases undefined : (cfg.walk dotted).1 = .undefined
    · simp only [run, Config.getOr, Lookup.dotted, outcome, undefined, if_true]
    · simp only [run, Config.getOr, Lookup.dotted, outcome, undefined, if_false]
      cases as (cfg.walk dotted).1 <;> rfl

/-! A root that is no map is left alone. -/

theorem parts_ne_nil (dotted : String) : parts dotted ≠ [] := by
  simp [parts]

theorem walk_not_map {cfg : Config} (scalar : (cfg.memory.contentOf cfg.root).isMap = false)
    (dotted : String) : cfg.walk dotted = (.null, cfg) := by
  unfold Config.walk
  cases split : parts dotted with
  | nil => exact absurd split (parts_ne_nil dotted)
  | cons part rest => simp [traverse_cons_not_map scalar, Memory.found]

theorem after_not_map {cfg : Config} (scalar : (cfg.memory.contentOf cfg.root).isMap = false)
    (made : List (Lookup α)) : cfg.after made = cfg := by
  induction made with
  | nil => rfl
  | cons lookup rest ih =>
    have kept : (lookup.run cfg).2 = cfg := by rw [lookup.run_snd, walk_not_map scalar]
    simpa only [Config.after, List.foldl_cons, kept] using ih

/-! Reading a fresh memory without redirecting anything. -/

def peek (m : Memory) : Nat → List String → Found
  | c, [] => (m.content c).found
  | c, part :: rest =>
    match m.content c with
    | .map entries =>
      match entries.lookup part with
      | some cell => peek m (m.ref cell) rest
      | none => if rest = [] then .undefined else .null
    | _ => .null

theorem peek_some {m : Memory} {c cell : Nat} {entries : List (String × Nat)} {part : String}
    (at_c : m.content c = .map entries) (found : entries.lookup part = some cell)
    (rest : List String) : peek m c (part :: rest) = peek m (m.ref cell) rest := by
  simp only [peek, at_c, found]

theorem peek_none {m : Memory} {c : Nat} {entries : List (String × Nat)} {part : String}
    (at_c : m.content c = .map entries) (missing : entries.lookup part = none)
    (rest : List String) :
    peek m c (part :: rest) = if rest = [] then .undefined else .null := by
  simp only [peek, at_c, missing]

theorem peek_not_map {m : Memory} {c : Nat} (scalar : (m.content c).isMap = false)
    (part : String) (rest : List String) : peek m c (part :: rest) = .null := by
  cases at_c : m.content c with
  | map entries =>
    rw [at_c] at scalar
    cases scalar
  | _ => simp only [peek, at_c]

theorem mem_of_lookup {β : Type} {key : String} {x : β} {entries : List (String × β)}
    (found : entries.lookup key = some x) : (key, x) ∈ entries := by
  obtain ⟨before, after, split, _⟩ := List.lookup_eq_some_iff.mp found
  exact split ▸ by simp

/-- Content refers to older content, so redirecting a newer cell is not seen. -/
theorem peek_redirect {m : Memory} (fresh : Fresh m) {cur target c : Nat} (below : c < m.ref cur)
    (path : List String) : peek (m.redirect cur target) c path = peek m c path := by
  induction path generalizing c with
  | nil => rfl
  | cons part rest ih =>
    have same : (m.redirect cur target).content c = m.content c := rfl
    cases at_c : m.content c with
    | map entries =>
      cases found : entries.lookup part with
      | none => rw [peek_none (same.trans at_c) found, peek_none at_c found]
      | some cell =>
        have older := fresh.ordered at_c (mem_of_lookup found)
        have other : cell ≠ cur := by
          rintro rfl
          omega
        rw [peek_some (same.trans at_c) found, peek_some at_c found]
        simpa only [Memory.redirect, Function.update_of_ne other] using ih (older.trans below)
    | _ => rw [peek_not_map (by rw [same, at_c]; rfl), peek_not_map (by rw [at_c]; rfl)]

/-- A first walk sees what is there, although it redirects as it goes. -/
theorem traverse_found {m : Memory} (fresh : Fresh m) {cur : Nat} (below : cur < m.next)
    (path : List String) :
    (traverse m cur path).1.found (traverse m cur path).2 = peek m (m.ref cur) path := by
  induction path generalizing m cur with
  | nil => rfl
  | cons part rest ih =>
    cases at_cur : m.contentOf cur with
    | map entries =>
      have at_ref : m.content (m.ref cur) = .map entries := at_cur
      rw [traverse_cons_map (by rw [at_cur]; rfl)]
      cases found : entries.lookup part with
      | some cell =>
        have older := fresh.ordered at_ref (mem_of_lookup found)
        have other : cell ≠ cur := by
          rintro rfl
          omega
        have kept : (m.redirect cur (m.ref cell)).ref cell = m.ref cell := by
          simp [Memory.redirect, Function.update_of_ne other]
        rw [Memory.enter_found at_cur found (Nat.ne_of_lt older),
          ih (fresh.redirect below older) (fresh.bounded at_ref (mem_of_lookup found)), kept,
          peek_redirect fresh older]
        simp [peek, at_ref, found]
      | none =>
        rw [Memory.enter_missing at_cur found below (fresh.refs below)]
        have undefined : ((m.insert (m.ref cur) entries part).redirect cur m.next).contentOf m.next =
            .undefined := by
          have apart : m.next ≠ cur := Nat.ne_of_gt below
          have apart' : m.next ≠ m.ref cur := Nat.ne_of_gt (fresh.refs below)
          simp [Memory.contentOf, Memory.redirect, insert_ref, insert_content,
            Function.update_of_ne apart, Function.update_of_ne apart']
        cases rest with
        | nil => simp [traverse, Memory.found, undefined, Content.found, peek, at_ref, found]
        | cons key keys =>
          simp [traverse, Memory.found, undefined, Content.isMap, peek, at_ref, found]
    | _ =>
      have at_ref := at_cur
      unfold Memory.contentOf at at_ref
      rw [traverse_cons_not_map (by rw [at_cur]; rfl)]
      simp [peek, at_ref, Memory.found]

end Lexaire
