import MeshAccess.Logins
import MeshAccess.Matching
import MeshAccess.Recorder
import MeshAccess.Settings
import MeshAccess.StringSet
import MeshAccess.Wire

/-!
# Compiling policies

`compile` gives the document of a destination node. Each rule of the policy is compiled on its
own, in order: it yields a rule for the own nodes of the destination's owner if the destination is
reached as the owner's node, then one for the sources of all users if it is reached by a tag, both
with the same logins and action. A rule that no source matches is left out.
-/

namespace MeshAccess

/-- A policy with the settings it is compiled under. -/
structure Compiler where
  policy : Policy
  settings : Settings
  deriving DecidableEq

namespace Compiler

/-- The compiler of the empty policy under default settings. -/
def empty : Compiler := ⟨.empty, .standard⟩

/-- The compiler of another policy under the same settings. -/
def update (c : Compiler) (p : Policy) : Compiler := { c with policy := p }

/-- The logins that a rule grants on a destination: to its owner, and to the sources of all
users. -/
def logins (r : Rule) (dst : OwnedNode) : Option (SortedMap String) × Option (SortedMap String) :=
  let reached := Destination.evaluate dst r.dst
  let granted := Logins.ofTokens r.users
  if granted.isEmpty then (none, none)
  else
    (if reached.owner then some granted else none, if reached.tagged then some granted else none)

/-- The set of addresses with those that a token brings in from the nodes, one after the other. -/
def collect (p : Policy) (srcs : List OwnedNode) (user : Option User) (set : StringSet)
    (token : String) : StringSet :=
  srcs.foldl (fun set n => set.add (expandSource p n token user)) set

/-- The source addresses of a rule, in the order of its tokens and then of the nodes, each once.
Tokens that may not bring in sources are passed over. -/
def sources (p : Policy) (r : Rule) (srcs : List OwnedNode) (user : Option User) : List String :=
  (r.src.foldl
    (fun set t =>
      if (Alias.classify t).isSourceFor r.action then collect p srcs user set t else set)
    .empty).toList

/-- What happens to the sessions of a rule apart from recording. -/
def baseAction (s : Settings) (r : Rule) : Wire.Action :=
  match r.action with
  | .check => .hold (s.checkUrl r.period)
  | _ => .acceptAtOnce

/-- What happens to the sessions of a rule. -/
def action (s : Settings) (r : Rule) (srcs : List OwnedNode) (dst : OwnedNode) : Wire.Action :=
  if r.recorder = [] then baseAction s r
  else
    { baseAction s r with
      recorders := Recorder.resolve r.recorder srcs dst s.recorderPort
      message := some s.recordingMessage
      onRecordingFailure :=
        if r.enforceRecorder then some ⟨s.rejectMessage, s.terminateMessage⟩ else none }

/-- The rule that grants `logins` to the given addresses, if there are any. -/
def grant (addresses : List String) (logins : SortedMap String) (action : Wire.Action) :
    List Wire.Rule :=
  if addresses = [] then [] else [⟨addresses.map Wire.Principal.mk, logins, action⟩]

/-- The rule for the own nodes of the destination's owner. -/
def ownerRule (c : Compiler) (r : Rule) (srcs : List OwnedNode) (dst : OwnedNode) :
    List Wire.Rule :=
  match (logins r dst).1, dst.owner with
  | some granted, some owner =>
    grant (sources c.policy r srcs (some owner)) granted (action c.settings r srcs dst)
  | _, _ => []

/-- The rule for the sources of all users. -/
def tagRule (c : Compiler) (r : Rule) (srcs : List OwnedNode) (dst : OwnedNode) :
    List Wire.Rule :=
  match (logins r dst).2 with
  | some granted => grant (sources c.policy r srcs none) granted (action c.settings r srcs dst)
  | none => []

/-- The rules that a rule of the policy yields. -/
def compileRule (c : Compiler) (r : Rule) (srcs : List OwnedNode) (dst : OwnedNode) :
    List Wire.Rule :=
  if r.action.isSupported then ownerRule c r srcs dst ++ tagRule c r srcs dst else []

/-- The document of the destination `dst` with `srcs` as possible sources. -/
def compile (c : Compiler) (srcs : List OwnedNode) (dst : OwnedNode) : Wire.Document :=
  ⟨c.policy.rules.flatMap fun r => compileRule c r srcs dst⟩

end Compiler

end MeshAccess
