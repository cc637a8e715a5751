import BotHive.Library.JsNumber
import BotHive.Library.Json
import BotHive.Webhooks.UrlGuard

/-!
# What scripts use of their language

Script configs come from the clients as JSON values. The conversions of such values to texts and to
numbers, the compiler of regular expressions and the parser of URLs belong to the language; they
are parameters, as far as a conversion is not plain.

The names under which a config is read are on no prototype, so an absent field of a config is
`undefined`.
-/

namespace Value

/-- A field of an object under one of the names of a config. -/
def own (fields : List (String × Value)) (name : String) : Value :=
  (ownField name fields).getD .undefined

theorem sizeOf_own_lt (fields : List (String × Value)) (name : String) :
    sizeOf (own fields name) < 1 + sizeOf fields := by
  induction fields with
  | nil => simp [own, ownField]
  | cons e rest ih =>
    by_cases he : e.1 = name
    · have hown : own (e :: rest) name = e.2 := by simp [own, ownField, he]
      rw [hown]
      obtain ⟨key, v⟩ := e
      simp only [List.cons.sizeOf_spec, Prod.mk.sizeOf_spec]
      omega
    · have hown : own (e :: rest) name = own rest name := by simp [own, ownField, he]
      rw [hown]
      simp only [List.cons.sizeOf_spec]
      omega

theorem sizeOf_own_lt_step (fields : List (String × Value)) (name : String) (rest : List Value) :
    sizeOf (own fields name) < sizeOf (obj fields :: rest) := by
  have hlt := sizeOf_own_lt fields name
  simp only [List.cons.sizeOf_spec, obj.sizeOf_spec]
  omega

def truthy : Value → Bool
  | .undefined | .null => false
  | .bool b => b
  | .num q => q ≠ 0
  | .str s => s ≠ ""
  | .arr _ | .obj _ | .func _ => true

end Value

namespace BotHive.Scripts

structure ScriptLanguage where
  /-- The compiled regular expression as its test, none when the pattern is malformed. -/
  compile : String → Option (String → Bool)
  /-- The text of a number, a list, an object or a function, none when the conversion throws. -/
  stringOf : Value → Option String
  /-- The number of a string, a list, an object or a function, none when the conversion throws. -/
  numberOf : Value → Option JsNumber
  /-- A member that an object does not own. -/
  inherited : Value → String → Value
  parseUrl : String → Option Webhooks.Url
  guard : Webhooks.GuardEnv

namespace ScriptLanguage

variable (lang : ScriptLanguage)

def text : Value → Option String
  | .str s => some s
  | .undefined => some "undefined"
  | .null => some "null"
  | .bool b => some (if b then "true" else "false")
  | v => lang.stringOf v

def number : Value → Option JsNumber
  | .num q => some (.finite q)
  | .undefined => some .nan
  | .null => some (.finite 0)
  | .bool b => some (.finite (if b then 1 else 0))
  | v => lang.numberOf v

def isWebhookUrlAllowed (url : String) : Bool :=
  Webhooks.isWebhookUrlAllowed lang.guard lang.parseUrl url

end ScriptLanguage

end BotHive.Scripts
