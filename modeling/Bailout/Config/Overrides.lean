import Bailout.Config.Basic
import Bailout.Text.Blank
import Bailout.Text.Digits

/-!
# Overrides

Settings taken from the environment. The variable of a setting is its key in capitals behind a
common beginning. A number may stand between blanks and behind a plus sign; a switch is off if its
text is blank, `0` or `false`, and on for any other text. The result is validated.
-/

namespace Bailout.Config

def variableStart : String := "PRISM_DEOPT_"

def variableOf (key : String) : String := variableStart ++ key.map Char.toUpper

/-- A number that fits in 32 bits, between blanks and behind an optional plus sign. -/
def number? (s : String) : Option Nat :=
  let cs := Text.trimList s.toList
  let digits := match cs with
    | '+' :: rest => rest
    | _ => cs
  (Text.digits? 10 digits).filter (· < 1 <<< 32)

def isTrue (s : String) : Bool :=
  let t := Text.trim s
  !(t.isEmpty || t == "0" || t.map Char.toLower == "false")

/-- Take one numeric setting from the environment. -/
def overrideLimit (lookup : String → Option String) (c : Config) (l : Limit) :
    Except ConfigError Config :=
  match lookup (variableOf l.key) with
  | none => .ok c
  | some s =>
    match number? s with
    | some n => .ok (l.set n c)
    | none => .error (.override (variableOf l.key) s)

/-- Take one switch from the environment. -/
def overrideSwitch (lookup : String → Option String) (c : Config) (s : Switch) : Config :=
  match lookup (variableOf s.key) with
  | none => c
  | some t => s.set (isTrue t) c

/-- Take every setting from the environment that is there, and validate the result. -/
def withOverrides (c : Config) (lookup : String → Option String) : Except ConfigError Config := do
  let c ← Limit.all.foldlM (overrideLimit lookup) c
  (Switch.all.foldl (overrideSwitch lookup) c).validate

end Bailout.Config
