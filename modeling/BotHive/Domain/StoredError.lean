import Mathlib.Data.List.Sort
import BotHive.Library.Replace
import BotHive.Library.Utf16

/-!
# The stored error of a bot

`onError` stores the text of an error: the secrets of the bot are masked, first as they are and
then as they stand in a URL, afterwards control characters become spaces, and the text is trimmed
and cut. A control character is still in the text when it is masked.

## Main definitions

- `BotCredentials.secrets`, `maskSecrets`, `sanitizeErrorMessage`, `Bot.onError`
- `BotCredentials.forms`: the values of the credentials, as they are and encoded
- `Covered`: the condition under which masking sees every place where a form is to be read

## Main results

- `infix_of_infix_masked`: what the masks leave of a text
- `onError_hides`
-/

namespace BotHive.Domain

structure BotCredentials where
  token : Option Utf16
  clientId : Option Utf16
  clientSecret : Option Utf16
  refreshToken : Option Utf16
  accessToken : Option Utf16
  apiKey : Option Utf16
  apiSecret : Option Utf16
  username : Option Utf16
  channel : Option Utf16
  channelId : Option Utf16

inductive BotState
  | idle
  | connecting
  | running
  | paused
  | error
  | reconnecting
  | disconnecting
  | removed
  deriving DecidableEq

/-- The state after `fail`, where the transition exists. -/
def BotState.fail : BotState → Option BotState
  | connecting | running | paused | reconnecting | disconnecting => some error
  | idle | error | removed => none

structure Bot where
  credentials : BotCredentials
  state : BotState
  updatedAt : ℤ
  lastError : Option Utf16

section Sanitizing

def MAX_ERROR_LENGTH : ℕ := 500

/-- The values of `SECRET_FIELDS`. -/
def BotCredentials.secretFields (c : BotCredentials) : List (Option Utf16) :=
  [c.token, c.clientSecret, c.refreshToken, c.accessToken, c.apiKey, c.apiSecret]

/-- The secrets of at least six characters, longer ones first. -/
def BotCredentials.secrets (c : BotCredentials) : List Utf16 :=
  ((c.secretFields.reduceOption).filter (6 ≤ ·.length)).insertionSort (·.length ≥ ·.length)

/-- `***` -/
def stars : Utf16 := [0x2A, 0x2A, 0x2A]

/-- A lone surrogate in the secret makes the encoding throw. -/
def maskSecret (text value : Utf16) : Option Utf16 :=
  (Utf16.encodeURIComponent value).map fun encoded =>
    replaceList encoded stars (replaceList value stars text)

def maskSecrets (message : Utf16) (credentials : BotCredentials) : Option Utf16 :=
  credentials.secrets.foldlM maskSecret message

/-- No half of a surrogate pair is a control character. -/
def isControl (code : UInt16) : Bool :=
  code < 0x20 || code = 0x7F || code = 0x85 || code = 0x2028 || code = 0x2029

def stripControlChar (code : UInt16) : UInt16 :=
  if isControl code then 0x20 else code

def stripControlChars (value : Utf16) : Utf16 :=
  value.map stripControlChar

def sanitizeErrorMessage (message : Utf16) (credentials : Option BotCredentials) :
    Option Utf16 := do
  let masked ← match credentials with
    | some credentials => maskSecrets message credentials
    | none => some message
  return (stripControlChars masked).trim.take MAX_ERROR_LENGTH

/-- Where sanitizing throws, the bot stays as it is. -/
def Bot.onError (bot : Bot) (now : ℤ) (error : Utf16) : Option Bot := do
  let lastError ← sanitizeErrorMessage error (some bot.credentials)
  return { bot with lastError, updatedAt := now, state := bot.state.fail.getD bot.state }

end Sanitizing

section Forms

/-- A value as it is and as it stands in a URL. -/
def formsOf (value : Utf16) : List Utf16 :=
  value :: (Utf16.encodeURIComponent value).toList

/-- What is masked. -/
def BotCredentials.maskedForms (c : BotCredentials) : List Utf16 :=
  c.secrets.flatMap formsOf

/-- Every value of at least six characters, in both forms. -/
def BotCredentials.forms (c : BotCredentials) : List Utf16 :=
  ((c.secretFields ++ [c.clientId, c.username, c.channel, c.channelId]).reduceOption.filter
    (6 ≤ ·.length)).flatMap formsOf

/-- The stored error of the bot does not contain the form. -/
def Bot.Hides (bot : Bot) (form : Utf16) : Prop :=
  ∀ stored ∈ bot.lastError, ¬form <:+: stored

/-- Every stretch of the text that reads as the form once its control characters are spaces is
    masked as it stands; and if anything is masked at all, the form cannot lie across a mask. -/
def Covered (c : BotCredentials) (error form : Utf16) : Prop :=
  (∀ w, w <:+: error → stripControlChars w = form → w ∈ c.maskedForms) ∧
    ((∃ q ∈ c.maskedForms, q <:+: error) → Apart stars form)

/-- Nothing is masked, trimmed or cut. -/
def StoredWhole (c : BotCredentials) (error : Utf16) : Prop :=
  (∀ q ∈ c.maskedForms, ¬q <:+: error) ∧
    (stripControlChars error).trim = stripControlChars error ∧ error.length ≤ MAX_ERROR_LENGTH

end Forms

variable {c : BotCredentials} {secrets : List Utf16} {text masked error form w : Utf16}

theorem ne_nil_of_mem_secrets (h : w ∈ c.secrets) : w ≠ [] := by
  rw [BotCredentials.secrets, List.mem_insertionSort, List.mem_filter, decide_eq_true_eq] at h
  rintro rfl
  exact absurd h.2 (by decide)

/-- What occurs in a masked text, apart from the masks, occurs in the text and is not masked. -/
theorem infix_of_infix_masked (hne : ∀ value ∈ secrets, value ≠ [])
    (hmasked : secrets.foldlM maskSecret text = some masked)
    (hapart : Apart stars w) (h : w <:+: masked) :
    w <:+: text ∧ ∀ value ∈ secrets, w ∉ formsOf value := by
  induction secrets generalizing text with
  | nil =>
    rw [List.foldlM_nil, Option.pure_def, Option.some.injEq] at hmasked
    exact ⟨hmasked ▸ h, nofun⟩
  | cons value rest ih =>
    have hvalue := hne value List.mem_cons_self
    rw [List.foldlM_cons, Option.bind_eq_bind, Option.bind_eq_some_iff] at hmasked
    obtain ⟨masked', hmask, hrest⟩ := hmasked
    rw [maskSecret, Option.map_eq_some_iff] at hmask
    obtain ⟨encoded, hencoded, rfl⟩ := hmask
    have hencoded' := Utf16.encodeURIComponent_ne_nil hencoded hvalue
    obtain ⟨hin, hothers⟩ := ih (fun v hv => hne v (List.mem_cons_of_mem _ hv)) hrest
    have hraw := infix_of_infix_replaceList hencoded' hapart hin
    refine ⟨infix_of_infix_replaceList hvalue hapart hraw, fun v hv => ?_⟩
    obtain rfl | hv := List.mem_cons.mp hv
    · rw [formsOf, hencoded, Option.toList_some, List.mem_cons, List.mem_singleton]
      rintro (rfl | rfl)
      · exact not_infix_replaceList hvalue hapart text hraw
      · exact not_infix_replaceList hencoded' hapart _ hin
    · exact hothers v hv

/-- Without an occurrence of a secret the text stays as it is. -/
theorem masked_of_not_infix (h : ∀ value ∈ secrets, ∀ q ∈ formsOf value, ¬q <:+: text)
    (hmasked : secrets.foldlM maskSecret text = some masked) : masked = text := by
  induction secrets generalizing text with
  | nil =>
    rw [List.foldlM_nil, Option.pure_def, Option.some.injEq] at hmasked
    exact hmasked.symm
  | cons value rest ih =>
    rw [List.foldlM_cons, Option.bind_eq_bind, Option.bind_eq_some_iff] at hmasked
    obtain ⟨masked', hmask, hrest⟩ := hmasked
    rw [maskSecret, Option.map_eq_some_iff] at hmask
    obtain ⟨encoded, hencoded, rfl⟩ := hmask
    have hforms := h value List.mem_cons_self
    rw [formsOf, hencoded, Option.toList_some] at hforms
    rw [replaceList_eq_self (hforms value List.mem_cons_self),
      replaceList_eq_self (hforms encoded (List.mem_cons_of_mem _ List.mem_cons_self))] at hrest
    exact ih (fun v hv => h v (List.mem_cons_of_mem _ hv)) hrest

theorem stripControlChar_of_mem_stars {code : UInt16} (h : code ∈ stars) :
    stripControlChar code = code := by
  have hstar : code = 0x2A := by simpa [stars] using h
  rw [hstar]
  rfl

/-- Masks are not control characters: what reads as a form apart from them is apart from them. -/
theorem apart_of_stripControlChars (h : Apart stars (stripControlChars w)) : Apart stars w where
  head a v hw ha := by
    refine h.head (stripControlChar a) (stripControlChars v) (by rw [hw]; rfl) ?_
    rwa [stripControlChar_of_mem_stars ha]
  last u a hw ha := by
    refine h.last (stripControlChars u) (stripControlChar a) ?_ ?_
    · rw [hw, stripControlChars, List.map_append]
      rfl
    · rwa [stripControlChar_of_mem_stars ha]
  inner hin := h.inner (hin.map stripControlChar)

/-- What `onError` stores when it does not throw. -/
theorem lastError_of_onError {bot bot' : Bot} {now : ℤ} (h : bot.onError now error = some bot') :
    ∃ masked, maskSecrets error bot.credentials = some masked ∧
      bot'.lastError = some ((stripControlChars masked).trim.take MAX_ERROR_LENGTH) := by
  simp only [Bot.onError, sanitizeErrorMessage, Option.bind_eq_bind, Option.bind_eq_some_iff,
    Option.pure_def, Option.some.injEq] at h
  obtain ⟨-, ⟨masked, hmasked, rfl⟩, rfl⟩ := h
  exact ⟨masked, hmasked, rfl⟩

theorem mem_maskedForms : form ∈ c.maskedForms ↔ ∃ value ∈ c.secrets, form ∈ formsOf value :=
  List.mem_flatMap

/-- A covered form is not to be read in the masked text. -/
theorem not_infix_of_covered (hmasked : maskSecrets error c = some masked)
    (hcovered : Covered c error form) : ¬form <:+: stripControlChars masked := by
  intro hform
  obtain ⟨w, hw, rfl⟩ := List.infix_map_iff.mp hform
  obtain ⟨hreads, hacross⟩ := hcovered
  by_cases hany : ∃ q ∈ c.maskedForms, q <:+: error
  · have hapart := apart_of_stripControlChars (hacross hany)
    obtain ⟨hin, hnone⟩ := infix_of_infix_masked (fun v => ne_nil_of_mem_secrets) hmasked hapart hw
    obtain ⟨value, hvalue, hw⟩ := mem_maskedForms.mp (hreads w hin rfl)
    exact hnone value hvalue hw
  · obtain rfl : masked = error := masked_of_not_infix
      (fun v hv q hq hin => hany ⟨q, mem_maskedForms.mpr ⟨v, hv, hq⟩, hin⟩) hmasked
    exact hany ⟨w, hreads w hw rfl, hw⟩

/-- In a text that is stored whole, a form that is not to be read is covered. -/
theorem covered_of_not_infix (hwhole : StoredWhole c error)
    (h : ¬form <:+: stripControlChars error) : Covered c error form := by
  refine ⟨fun w hw hform => absurd ?_ h, fun ⟨q, hq, hin⟩ => absurd hin (hwhole.1 q hq)⟩
  rw [← hform]
  exact hw.map stripControlChar

theorem StoredWhole.stored_eq (hwhole : StoredWhole c error)
    (hmasked : maskSecrets error c = some masked) :
    (stripControlChars masked).trim.take MAX_ERROR_LENGTH = stripControlChars error := by
  obtain ⟨hnone, htrim, hlength⟩ := hwhole
  obtain rfl : masked = error := masked_of_not_infix
    (fun v hv q hq => hnone q (mem_maskedForms.mpr ⟨v, hv, hq⟩)) hmasked
  rw [htrim, List.take_of_length_le]
  rwa [stripControlChars, List.length_map]

/-- **Stored errors**: the stored error contains no covered form of a credential, and where the
    text is stored whole the covered forms are the only ones that it does not contain. -/
theorem onError_hides {bot bot' : Bot} {now : ℤ} {error : Utf16}
    (hstored : bot.onError now error = some bot') :
    ∀ form ∈ bot.credentials.forms,
      (Covered bot.credentials error form → bot'.Hides form) ∧
        (StoredWhole bot.credentials error →
          (bot'.Hides form ↔ Covered bot.credentials error form)) := by
  intro form _
  obtain ⟨masked, hmasked, hlast⟩ := lastError_of_onError hstored
  have hhides : bot'.Hides form ↔
      ¬form <:+: (stripControlChars masked).trim.take MAX_ERROR_LENGTH := by
    rw [Bot.Hides, hlast]
    simp only [Option.mem_some_iff, forall_eq']
  have hcovers (hcovered : Covered bot.credentials error form) : bot'.Hides form := by
    rw [hhides]
    intro hin
    refine not_infix_of_covered hmasked hcovered (hin.trans ?_)
    exact (List.take_prefix _ _).isInfix.trans (Utf16.trim_isInfix _)
  refine ⟨hcovers, fun hwhole => ⟨fun hnot => ?_, hcovers⟩⟩
  rw [hhides, hwhole.stored_eq hmasked] at hnot
  exact covered_of_not_infix hwhole hnot

section Spaces

/-- A bot with a key that has a space in it. -/
def spacedBot : Bot where
  credentials := ⟨none, none, none, none, none, some (Utf16.ofString "abc def"), none, none, none,
    none⟩
  state := .running
  updatedAt := 0
  lastError := none

/-- What the bot stores of a text. -/
def spacedBotAfter (stored : String) : Bot :=
  { spacedBot with lastError := some (Utf16.ofString stored), state := .error, updatedAt := 1 }

/-- The key itself is masked. -/
theorem onError_spacedBot :
    Utf16.ofString "abc def" ∈ spacedBot.credentials.forms ∧
      Covered spacedBot.credentials (Utf16.ofString "key abc def refused")
        (Utf16.ofString "abc def") ∧
      (spacedBotAfter "key *** refused").Hides (Utf16.ofString "abc def") := by
  have hform : Utf16.ofString "abc def" ∈ spacedBot.credentials.forms := by decide
  have hcovered : Covered spacedBot.credentials (Utf16.ofString "key abc def refused")
      (Utf16.ofString "abc def") := by
    have hstars : (Utf16.ofString "abc def").all (fun u => u != 0x2A) = true := by decide
    have hplain : (Utf16.ofString "key abc def refused").all
        (fun u => stripControlChar u == u) = true := by decide
    refine ⟨fun w hw hstrip => ?_, fun _ => Apart.of_forall_not_mem nofun fun u hu hmem => ?_⟩
    · have hsame : stripControlChars w = w := by
        refine (List.map_congr_left fun u hu => ?_).trans (List.map_id' w)
        exact eq_of_beq (List.all_eq_true.mp hplain u (hw.subset hu))
      rw [← hsame, hstrip]
      decide
    · have hne := List.all_eq_true.mp hstars u hu
      rw [List.eq_of_mem_replicate (show u ∈ List.replicate 3 0x2A from hmem)] at hne
      exact absurd hne (by decide)
  exact ⟨hform, hcovered, (onError_hides
    (show spacedBot.onError 1 _ = some (spacedBotAfter "key *** refused") from rfl) _ hform).1
      hcovered⟩

/-- With a tab in the place of the space it is not. -/
theorem not_hides_spacedBot :
    spacedBot.onError 1 (Utf16.ofString "key abc\tdef refused") =
        some (spacedBotAfter "key abc def refused") ∧
      Utf16.ofString "abc def" ∈ spacedBot.credentials.forms ∧
      ¬(spacedBotAfter "key abc def refused").Hides (Utf16.ofString "abc def") := by
  refine ⟨rfl, by decide, fun hhides => hhides _ rfl ?_⟩
  exact ⟨Utf16.ofString "key ", Utf16.ofString " refused", rfl⟩

end Spaces

end BotHive.Domain
