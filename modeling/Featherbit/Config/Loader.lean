/-
  ENVIRONMENT INTERPOLATION (`config/loader.rs`).

  The pattern `\$\{([A-Za-z_][A-Za-z0-9_]*)(?::-((?:[^}\\]|\\.)*)?)?\}` is matched by hand.  It
  is deterministic: a name ends at the first character that cannot belong to it, and inside a
  default a backslash can only be read together with the character after it, so the regex engine
  never finds a second way to match after backtracking.
-/
import Featherbit.Json

namespace Featherbit

/-- The process environment: `std::env::var(name).ok()`. -/
abbrev Env := String → Option String

def isNameStart (c : Char) : Bool :=
  (c.toNat < 128 && c.isAlpha) || c = '_'

def isNameChar (c : Char) : Bool :=
  (c.toNat < 128 && c.isAlphanum) || c = '_'

/-- The default text up to the closing brace, and what follows that brace. -/
def matchDefault : List Char → Option (List Char × List Char)
  | [] => none
  | '}' :: rest => some ([], rest)
  | ['\\'] => none
  | '\\' :: c :: rest =>
    -- `.` matches anything but a line feed
    if c = '\n' then none
    else (matchDefault rest).map fun p => ('\\' :: c :: p.1, p.2)
  | c :: rest => (matchDefault rest).map fun p => (c :: p.1, p.2)

/-- One match of the pattern at the head of the text: variable name, default, remaining text. -/
def matchRef : List Char → Option (String × String × List Char)
  | '$' :: '{' :: c :: rest =>
    if isNameStart c then
      let name := c :: rest.takeWhile isNameChar
      match rest.dropWhile isNameChar with
      | '}' :: rest' => some (String.ofList name, "", rest')
      | ':' :: '-' :: rest' =>
        (matchDefault rest').map fun p => (String.ofList name, String.ofList p.1, p.2)
      | _ => none
    else none
  | _ => none

/-- `replace_all` from the left; every round reads at least one character, so the text's length
    is enough fuel. -/
def interpolateChars (env : Env) : Nat → List Char → List Char
  | 0, l => l
  | _ + 1, [] => []
  | n + 1, c :: rest =>
    match matchRef (c :: rest) with
    | some (name, dflt, rest') => ((env name).getD dflt).toList ++ interpolateChars env n rest'
    | none => c :: interpolateChars env n rest

/-- `interpolate_env`. -/
def interpolateEnv (env : Env) (input : String) : String :=
  String.ofList (interpolateChars env input.toList.length input.toList)

/-- `s.contains("${")`. -/
def containsRef : List Char → Bool
  | '$' :: '{' :: _ => true
  | _ :: l => containsRef l
  | [] => false

mutual

/-- `interpolate_env_json`: every string leaf, keys left alone. -/
def interpolateEnvJson (env : Env) : Json → Json
  | .string s => if containsRef s.toList then .string (interpolateEnv env s) else .string s
  | .array items => .array (interpolateItems env items)
  | .object fields => .object (interpolateFields env fields)
  | .null => .null
  | .bool b => .bool b
  | .number n => .number n

def interpolateItems (env : Env) : List Json → List Json
  | [] => []
  | v :: vs => interpolateEnvJson env v :: interpolateItems env vs

def interpolateFields (env : Env) : List (String × Json) → List (String × Json)
  | [] => []
  | (k, v) :: fs => (k, interpolateEnvJson env v) :: interpolateFields env fs

end

/-- The pass `compile_policy` makes over a node's config before building its plugin. -/
def interpolateConfig (env : Env) (config : HashMap Json) : HashMap Json :=
  config.map fun _ value => interpolateEnvJson env value

end Featherbit
