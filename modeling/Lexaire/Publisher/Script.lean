import Lexaire.Core.Alone

/-! The deploy script of the sensor publisher, and what its commands do on the
companion. Every command may fail; under `set -e` that ends the script. -/
namespace Lexaire.Publisher
open Atomic Atomic.Program

/-- The commands that change the companion; each ends with success or not. -/
inductive Command where
  | composeDown
  | removeDir
  | clone (url : String)
  | fetch
  | resetHard
  | composeUp (build : Bool)
  deriving DecidableEq

inductive Op where
  | hasCheckout
  | originUrl
  | head
  | originHead
  | run (command : Command)
  deriving DecidableEq

@[reducible] def Op.Answer (Commit : Type) : Op → Type
  | .hasCheckout => Bool
  | .originUrl => Option String
  | .head | .originHead => Option Commit
  | .run _ => Bool

inductive Aborted where
  | noUrl
  | downFailed
  | failed (op : Op)
  deriving DecidableEq

abbrev Script (Commit : Type) := Program Op (Op.Answer Commit) Aborted

variable {Commit : Type} [DecidableEq Commit]

/-- A command whose failure ends the script. -/
def checked (command : Command) : Script Commit Unit := do
  let succeeded ← perform (.run command)
  if succeeded then done () else raise (.failed (.run command))

/-- An assignment from a command whose failure ends the script. -/
def assigned (op : Op) : Option Commit → Script Commit Commit
  | some commit => done commit
  | none => raise (.failed op)

/-- A checkout of another repository is brought down and removed. A remote that
cannot be read counts as another one. -/
def dropOther (repoUrl : String) : Script Commit Unit := do
  if ← perform .hasCheckout then
    let haveUrl ← perform Op.originUrl
    if Option.getD haveUrl "" ≠ repoUrl then
      if ← perform (.run .composeDown) then checked .removeDir else raise .downFailed
    else done ()
  else done ()

/-- Fresh checkout: must build. -/
def firstDeploy (repoUrl : String) : Script Commit Unit := do
  checked (.clone repoUrl)
  checked (.composeUp true)

/-- Existing checkout: only rebuild if `origin/HEAD` moved. -/
def update : Script Commit Unit := do
  checked .fetch
  let localHead ← perform .head
  let localHead ← assigned .head localHead
  let remoteHead ← perform .originHead
  let remoteHead ← assigned .originHead remoteHead
  if localHead = remoteHead then
    checked (.composeUp false)
  else do
    checked .resetHard
    checked (.composeUp true)

def deployPublisher (repoUrl : String) : Script Commit Unit :=
  if repoUrl = "" then raise .noUrl
  else do
    dropOther repoUrl
    if ← perform .hasCheckout then update else firstDeploy repoUrl

/-- The repository in the deploy directory. Nothing is cloned from an empty URL. -/
structure Checkout (Commit : Type) where
  url : String
  head : Commit
  originHead : Commit
  named : url ≠ ""

/-- The companion with the repositories it may be told to deploy. Of an image and
of the running containers it matters which commit they were built from. -/
structure Companion (ImageName Commit : Type) where
  checkout : Option (Checkout Commit)
  images : ImageName → Option Commit
  running : Option Commit
  upstream : String → Commit

variable {ImageName : Type} [DecidableEq ImageName] (imageName : Commit → ImageName)

namespace Companion

/-- What a fetch learns. It does not follow an upstream whose default branch becomes another:
`origin/HEAD` names one branch for good. -/
def fetched (s : Companion ImageName Commit) (c : Checkout Commit) : Companion ImageName Commit :=
  { s with checkout := some { c with originHead := s.upstream c.url } }

def wasReset (s : Companion ImageName Commit) (c : Checkout Commit) : Companion ImageName Commit :=
  { s with checkout := some { c with head := c.originHead } }

/-- The commit of the image that `up` runs: an existing image is used unless it is
told to build. -/
def upCommit (s : Companion ImageName Commit) (build : Bool) (c : Checkout Commit) : Commit :=
  if build then c.head else (s.images (imageName c.head)).getD c.head

def upImages (s : Companion ImageName Commit) (build : Bool) (c : Checkout Commit) :
    ImageName → Option Commit :=
  Function.update s.images (imageName c.head) (some (s.upCommit imageName build c))

def up (s : Companion ImageName Commit) (build : Bool) (c : Checkout Commit) :
    Companion ImageName Commit :=
  { s with images := s.upImages imageName build c, running := some (s.upCommit imageName build c) }

end Companion

/-- What each command may answer and do. -/
inductive Effect : (op : Op) → Companion ImageName Commit → op.Answer Commit →
    Companion ImageName Commit → Prop where
  | hasCheckout (s) : Effect .hasCheckout s s.checkout.isSome s
  | originUrl {s c} : s.checkout = some c → Effect .originUrl s (some c.url) s
  | originUrl_failed (s) : Effect .originUrl s none s
  | head {s c} : s.checkout = some c → Effect .head s (some c.head) s
  | head_failed (s) : Effect .head s none s
  | originHead {s c} : s.checkout = some c → Effect .originHead s (some c.originHead) s
  | originHead_failed (s) : Effect .originHead s none s
  | composeDown (s) : Effect (.run .composeDown) s true { s with running := none }
  | composeDown_failed {s} (running : Option Commit) : running = s.running ∨ running = none →
      Effect (.run .composeDown) s false { s with running }
  | removeDir (s) : Effect (.run .removeDir) s true { s with checkout := none }
  | removeDir_failed {s} (checkout : Option (Checkout Commit)) :
      checkout = s.checkout ∨ checkout = none → Effect (.run .removeDir) s false { s with checkout }
  | clone {s url} : s.checkout = none → (named : url ≠ "") → Effect (.run (.clone url)) s true
      { s with checkout := some ⟨url, s.upstream url, s.upstream url, named⟩ }
  | clone_failed (s url) : Effect (.run (.clone url)) s false s
  | fetch {s c} : s.checkout = some c → Effect (.run .fetch) s true (s.fetched c)
  | fetch_failed (s) : Effect (.run .fetch) s false s
  | fetch_incomplete {s c} : s.checkout = some c → Effect (.run .fetch) s false (s.fetched c)
  | resetHard {s c} : s.checkout = some c → Effect (.run .resetHard) s true (s.wasReset c)
  | resetHard_failed (s) : Effect (.run .resetHard) s false s
  | composeUp {s c} (build : Bool) : s.checkout = some c →
      Effect (.run (.composeUp build)) s true (s.up imageName build c)
  | build_failed (s) (build : Bool) : Effect (.run (.composeUp build)) s false s
  | start_failed {s c} (build : Bool) (running : Option Commit) : s.checkout = some c →
      running = s.running ∨ running = none ∨ running = (s.up imageName build c).running →
      Effect (.run (.composeUp build)) s false
        { s with images := s.upImages imageName build c, running }

end Lexaire.Publisher
