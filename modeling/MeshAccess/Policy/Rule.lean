import MeshAccess.Duration
import MeshAccess.Json.Record
import MeshAccess.Json.Value
import MeshAccess.Text.Quoted

/-!
# Rules

A rule of a policy lets the sources `src` log in on the destinations `dst` as the `users`, either
at once or after a check. `Rule.check` accepts the rules that a loaded policy may hold;
`Rule.period` is the check period that takes effect.
-/

namespace MeshAccess

/-- What happens to a session that a rule matches. -/
inductive RuleAction where
  /-- It starts at once. -/
  | accept
  /-- It is held until a check allows it. -/
  | check
  /-- Rules with any other action have no effect. -/
  | unknown
  deriving DecidableEq, Repr

namespace RuleAction

/-- Whether rules with this action have an effect. -/
def isSupported : RuleAction → Bool
  | .accept | .check => true
  | .unknown => false

/-- The action that a word names. -/
def ofWord (word : String) : RuleAction :=
  if word = "accept" then .accept else if word = "check" then .check else .unknown

/-- The word for an action. -/
def word : RuleAction → String
  | .accept => "accept"
  | .check => "check"
  | .unknown => "unknown"

/-- The value that may stand for an action given as the key of an object, which is null. -/
def decodeUnit : Json.Reading → Except Json.Fault Unit
  | .leaf .null => .ok ()
  | r => .error r.readFault

/-- An action in a document: a word, or an object with the word as its only key and null as its
value. What is neither a text nor an object is refused like a text that is no JSON. -/
def decode : Json.Reading → Except Json.Fault RuleAction
  | .leaf (.text s) => .ok (ofWord s)
  | .leaf (.brokenText read _) => .error read
  | .leaf .ended => .error .cutShort
  | .leaf _ | .array _ _ | .object [] none => .error .malformed
  | .object [] (some f) => .error f
  | .object ((t, v) :: ms) stop =>
    match Json.Reading.key t with
    | .error f => .error f
    | .ok word =>
      match decodeUnit v, ms, stop with
      | .error f, _, _ => .error f
      | .ok (), _ :: _, _ => .error .malformed
      | .ok (), [], some f => .error f
      | .ok (), [], none => .ok (ofWord word)

end RuleAction

/-- A rule of a policy. -/
structure Rule where
  action : RuleAction
  /-- How often a session is checked. -/
  checkPeriod : Option String
  src : List String
  dst : List String
  users : List String
  /-- The tags of the nodes that record sessions. -/
  recorder : List String
  /-- Whether sessions need to be recorded. -/
  enforceRecorder : Bool
  deriving DecidableEq, Repr

/-- Why a rule is not accepted. -/
inductive RuleFault where
  | emptySrc
  | emptyDst
  | emptyUsers
  | invalidPeriod (period : String)
  /-- The sum of the period's spans runs over. -/
  | periodOverrun (period : String)
  deriving DecidableEq, Repr

namespace RuleFault

/-- The sentence that states the fault. -/
def message : RuleFault → String
  | .emptySrc => "src cannot be empty"
  | .emptyDst => "dst cannot be empty"
  | .emptyUsers => "users cannot be empty"
  | .invalidPeriod period => s!"invalid check period: {Text.quoted period}"
  | .periodOverrun period => s!"check period out of range: {Text.quoted period}"

end RuleFault

namespace Rule

/-- The period of a check before every session. -/
def always : String := "always"

/-- The check period that takes effect: the one given, if it is not empty. -/
def period (r : Rule) : String :=
  match r.checkPeriod with
  | none => always
  | some p => if p = "" then always else p

/-- Accepts a period that checks know. -/
def checkPeriodText (p : String) : Except RuleFault Unit :=
  if p = always then .ok ()
  else
    match Duration.read p with
    | .ok _ => .ok ()
    | .error .malformed => .error (.invalidPeriod p)
    | .error .overrun => .error (.periodOverrun p)

/-- Accepts a rule with sources, destinations, users and a valid period. -/
def check (r : Rule) : Except RuleFault Unit :=
  if r.src = [] then .error .emptySrc
  else if r.dst = [] then .error .emptyDst
  else if r.users = [] then .error .emptyUsers
  else checkPeriodText r.period

/-! ## Documents -/

/-- A list of texts in a document. -/
def decodeTexts (r : Json.Reading) : Except Json.Fault (List String) :=
  r.asList Json.Reading.asText

/-- The fields of a rule. -/
def record : Json.Record Rule :=
  ((Json.Record.required "action" RuleAction.decode).and
    ((Json.Record.optional "checkPeriod" Json.Reading.asText).and
      ((Json.Record.required "src" decodeTexts).and
        ((Json.Record.required "dst" decodeTexts).and
          ((Json.Record.required "users" decodeTexts).and
            ((Json.Record.withDefault "recorder" decodeTexts []).and
              (Json.Record.withDefault "enforceRecorder" Json.Reading.asBool false))))))).map
    fun (action, checkPeriod, src, dst, users, recorder, enforceRecorder) =>
      { action, checkPeriod, src, dst, users, recorder, enforceRecorder }

/-- A rule in a document. -/
def decode (r : Json.Reading) : Except Json.Fault Rule := record.read r

/-- The document of a rule. -/
def toJson (r : Rule) : Json :=
  .object (("action", .text r.action.word) ::
    Json.member? "checkPeriod" (r.checkPeriod.map .text) ++
    [("src", Json.texts r.src), ("dst", Json.texts r.dst), ("users", Json.texts r.users)] ++
    (if r.recorder = [] then [] else [("recorder", Json.texts r.recorder)]) ++
    Json.flag? "enforceRecorder" r.enforceRecorder)

end Rule

end MeshAccess
