import BotHive.Library.Fallible
import BotHive.Scripts.AcceptedConfigs
import BotHive.Scripts.PatternFilters

/-!
# Generated configs

Which parameters give a config that passes the check: the limits of the patterns leave only a few
values that it refuses, and no regular expression that the script engine would not compile.

## Main definitions

- `PatternName.Fits`: the condition on the parameters of each pattern

## Main results

- `accepted_generate`: the config of a pattern is accepted when the parameters fit
- `generateScript_iff`: which requests make a script
-/

namespace BotHive.Scripts

open Patterns

variable {lang : ScriptLanguage} {params : PatternParams}

section Lengths

theorem utf16Length_append (s t : String) : utf16Length (s ++ t) = utf16Length s + utf16Length t := by
  simp [utf16Length]

theorem utf16Length_le (s : String) : utf16Length s ≤ 2 * s.toList.length := by
  rw [utf16Length]
  induction s.toList with
  | nil => exact Nat.le_refl 0
  | cons c rest ih =>
    rw [List.map_cons, List.sum_cons, List.length_cons]
    split <;> omega

theorem utf16Length_capText_le (text : String) : utf16Length (capText text) ≤ maxTextLength := by
  rw [capText]
  split
  · exact utf16Length_sliceUnits_le _ _
  · omega

theorem utf16Length_counterName_le (params : PatternParams) :
    utf16Length (counterName params "visits") ≤ maxPayloadString := by
  have hle : (counterName params "visits").toList.length ≤ 64 := by
    rw [counterName]
    split
    next hname =>
      rw [isCounterName, Bool.and_eq_true, Bool.and_eq_true] at hname
      exact of_decide_eq_true hname.1.2
    next => decide
  have hlength := utf16Length_le (counterName params "visits")
  rw [maxPayloadString]
  omega

/-- The keywords stay within the budget. -/
theorem utf16Length_joinText_le (started : Bool) (length : ℕ) (words : List String) :
    fittingWords started length words = [] ∨
      length + (if started then 1 else 0) +
        utf16Length (joinText '|' ((fittingWords started length words).map escapeRegex)) ≤
          maxKeywordRegex := by
  induction words generalizing started length with
  | nil => exact .inl rfl
  | cons word rest ih =>
    rw [fittingWords_cons]
    by_cases hroom : maxKeywordRegex < length + keywordCost started word
    · exact .inl (if_pos hroom)
    · right
      rw [if_neg hroom]
      have htotal : length + keywordCost started word =
          length + (utf16Length (escapeRegex word) + if started then 1 else 0) := rfl
      generalize length + keywordCost started word = total at hroom htotal ⊢
      rcases ih true total with hnil | hle
      · rw [hnil]
        show length + _ + utf16Length (escapeRegex word) ≤ _
        omega
      · cases hfitting : fittingWords true total rest with
        | nil =>
          show length + _ + utf16Length (escapeRegex word) ≤ _
          omega
        | cons next others =>
          rw [hfitting] at hle
          have hbar : utf16Length (String.singleton '|') = 1 := by decide
          show length + _ + utf16Length (escapeRegex word ++ String.singleton '|' ++
            joinText '|' ((next :: others).map escapeRegex)) ≤ _
          rw [utf16Length_append, utf16Length_append, hbar]
          simp only [if_true] at hle
          omega

theorem utf16Length_keywordRegex_le (words : List String) :
    utf16Length (keywordRegex words) ≤ maxKeywordRegex := by
  rcases utf16Length_joinText_le false 0 words with hnil | hle
  · rw [keywordRegex, hnil]
    exact Nat.zero_le _
  · rw [keywordRegex]
    omega

end Lengths

section Expressions

theorem isRegexSafe_iff {value : String} :
    isRegexSafe value = true ↔ utf16Length value ≤ maxRegexLength ∧ ¬CaughtOnSave value.toList := by
  rw [← Bool.not_eq_false, isRegexSafe_eq_false_iff, not_or, not_lt]

/-- No keyword has a backslash before a digit from 1 to 9. -/
def NoReferences (words : List String) : Prop :=
  ∀ word ∈ words, ¬HasBackreference word.toList

/-- A regular expression around some keywords is refused for its length or for a keyword. -/
theorem Frame.isRegexSafe_iff {front body back : List Char} (h : Frame front back) (hbody : Quiet body)
    {value : String} (hvalue : value.toList = front ++ (body ++ back)) :
    (isRegexSafe value = true ↔ utf16Length value ≤ maxRegexLength ∧ body.IsChain NoReference) ∧
      looksDangerous value = false := by
  refine ⟨?_, ?_⟩
  · rw [Scripts.isRegexSafe_iff, hvalue, h.caughtOnSave_iff hbody, not_not]
  · rw [← Bool.not_eq_true, looksDangerous_iff, hvalue]
    exact h.not_caughtOnCompile hbody

theorem isChain_keywords (words : List String) :
    (keywordTerm words).text.IsChain NoReference ↔ NoReferences words := by
  rw [isChain_keywordTerm]
  exact forall₂_congr fun word _ => by rw [hasBackreference_iff, not_not]

theorem toList_pattern (r : Regex) : r.pattern.toList = r.text :=
  String.toList_ofList

theorem keywordBoundaryRegex_safe (words : List String) :
    (isRegexSafe (keywordBoundaryRegex words) = true ↔ NoReferences (fittingWords false 0 words)) ∧
      looksDangerous (keywordBoundaryRegex words) = false := by
  have hlength : utf16Length (keywordBoundaryRegex words) ≤ maxRegexLength := by
    have hle := utf16Length_keywordRegex_le words
    have hfront : utf16Length "(?:^|[^\\w])(" = 12 := by decide
    have hback : utf16Length ")(?:$|[^\\w])" = 12 := by decide
    rw [keywordBoundaryRegex, utf16Length_append, utf16Length_append, hfront, hback, maxRegexLength]
    rw [maxKeywordRegex] at hle
    omega
  have htext : (keywordBoundaryRegex words).toList = _ :=
    (congrArg String.toList (pattern_boundaryTerm words)).symm.trans
      ((toList_pattern _).trans (text_boundaryTerm _))
  obtain ⟨hsafe, hdangerous⟩ := frame_boundary.isRegexSafe_iff (quiet_keywordTerm _) htext
  exact ⟨by rw [hsafe, isChain_keywords, and_iff_right hlength], hdangerous⟩

theorem prefixesRegex_safe (words : List String) :
    (isRegexSafe ("^(" ++ keywordRegex words ++ ")\\b") = true ↔
        NoReferences (fittingWords false 0 words)) ∧
      looksDangerous ("^(" ++ keywordRegex words ++ ")\\b") = false := by
  have hlength : utf16Length ("^(" ++ keywordRegex words ++ ")\\b") ≤ maxRegexLength := by
    have hle := utf16Length_keywordRegex_le words
    have hfront : utf16Length "^(" = 2 := by decide
    have hback : utf16Length ")\\b" = 3 := by decide
    rw [utf16Length_append, utf16Length_append, hfront, hback, maxRegexLength]
    rw [maxKeywordRegex] at hle
    omega
  have htext : ("^(" ++ keywordRegex words ++ ")\\b").toList = _ :=
    (congrArg String.toList (pattern_prefixesTerm words)).symm.trans
      ((toList_pattern _).trans (text_prefixesTerm _))
  obtain ⟨hsafe, hdangerous⟩ := frame_prefixes.isRegexSafe_iff (quiet_keywordTerm _) htext
  exact ⟨by rw [hsafe, isChain_keywords, and_iff_right hlength], hdangerous⟩

theorem prefixRegex_safe (front back : String) :
    (isRegexSafe ("^" ++ escapeRegex front ++ escapeRegex back ++ "\\b") = true ↔
        utf16Length (escapeRegex front) + utf16Length (escapeRegex back) + 3 ≤ maxRegexLength ∧
          ¬HasBackreference (front.toList ++ back.toList)) ∧
      looksDangerous ("^" ++ escapeRegex front ++ escapeRegex back ++ "\\b") = false := by
  have hlength : utf16Length ("^" ++ escapeRegex front ++ escapeRegex back ++ "\\b") =
      utf16Length (escapeRegex front) + utf16Length (escapeRegex back) + 3 := by
    have hfront : utf16Length "^" = 1 := by decide
    have hback : utf16Length "\\b" = 2 := by decide
    rw [utf16Length_append, utf16Length_append, utf16Length_append, hfront, hback]
    omega
  have htext : ("^" ++ escapeRegex front ++ escapeRegex back ++ "\\b").toList = _ :=
    (congrArg String.toList (pattern_prefixTerm front back)).symm.trans
      ((toList_pattern _).trans (text_prefixTerm _))
  obtain ⟨hsafe, hdangerous⟩ := frame_prefix.isRegexSafe_iff (quiet_literal _) htext
  refine ⟨?_, hdangerous⟩
  rw [hsafe, hlength, isChain_literal, hasBackreference_iff, not_not, String.toList_append]

theorem linkRegex_safe : isRegexSafe linkRegex = true ∧ looksDangerous linkRegex = false := by
  decide

end Expressions

section Configs

variable {config : GeneratedScriptConfig}

/-- A limit of a config, if there is one, is an integer in its range. -/
def LimitFits (low : ℚ) (limit : Option ℚ) : Prop :=
  ∀ q, limit = some q → q.isInt = true ∧ low ≤ q ∧ q ≤ 86400

theorem checkLimit_iff (lang : ScriptLanguage) (low : ℚ) (limit : Option ℚ) (problem : String) :
    checkLimit lang ((limit.map Value.num).getD .undefined) (isBetween low 86400) problem = some [] ↔
      LimitFits low limit := by
  cases limit with
  | none => exact iff_of_true rfl nofun
  | some q =>
    have hfits : LimitFits low (some q) ↔ isBetween low 86400 (.finite q) = true := by
      rw [isBetween, Bool.and_eq_true, Bool.and_eq_true, JsNumber.finite_le, JsNumber.finite_le,
        and_assoc]
      exact ⟨fun h => h q rfl, fun h _ heq => Option.some.inj heq ▸ h⟩
    show some (if isBetween low 86400 (.finite q) = true then [] else [problem]) = some [] ↔ _
    rw [hfits]
    split <;> simp_all

theorem own_filters : Value.own config.fields "filters" =
    (config.filters.map Value.arr).getD .undefined := by
  rcases config with ⟨trigger, _ | filters, actions, _ | cooldown, _ | interval⟩ <;> rfl

theorem own_actions : Value.own config.fields "actions" = .arr config.actions := by
  rcases config with ⟨trigger, _ | filters, actions, _ | cooldown, _ | interval⟩ <;> rfl

theorem own_cooldown : Value.own config.fields "cooldown" =
    (config.cooldown.map Value.num).getD .undefined := by
  rcases config with ⟨trigger, _ | filters, actions, _ | cooldown, _ | interval⟩ <;> rfl

theorem own_interval : Value.own config.fields "interval" =
    (config.interval.map Value.num).getD .undefined := by
  rcases config with ⟨trigger, _ | filters, actions, _ | cooldown, _ | interval⟩ <;> rfl

theorem own_maxExecutionMs : Value.own config.fields "maxExecutionMs" = .undefined := by
  rcases config with ⟨trigger, _ | filters, actions, _ | cooldown, _ | interval⟩ <;> rfl

/-- A config of a pattern is accepted when its filters, its actions and its limits are. -/
theorem accepted_iff : Accepted lang (.obj config.fields) ↔
    checkFilters lang ((config.filters.map Value.arr).getD .undefined) = some [] ∧
      (walkSteps lang config.actions 0 0).1 = [] ∧ LimitFits 0 config.cooldown ∧
        LimitFits 1 config.interval := by
  rw [Accepted, validateScriptConfig, own_filters, own_actions, own_cooldown, own_interval,
    own_maxExecutionMs, walkActions, ← checkLimit_iff lang 0 config.cooldown
      "cooldown must be an integer between 0 and 86400",
    ← checkLimit_iff lang 1 config.interval "interval must be an integer between 1 and 86400"]
  cases checkFilters lang ((config.filters.map Value.arr).getD .undefined) <;>
    cases checkLimit lang ((config.cooldown.map Value.num).getD .undefined) (isBetween 0 86400)
      "cooldown must be an integer between 0 and 86400" <;>
    cases checkLimit lang ((config.interval.map Value.num).getD .undefined) (isBetween 1 86400)
      "interval must be an integer between 1 and 86400" <;>
    simp [checkLimit]

theorem checkFilters_regexFilter {value : String} :
    checkFilters lang (.arr [regexFilter value]) = some [] ↔ isRegexSafe value = true := by
  have hcheck : checkFilter lang (regexFilter value) =
      some (problemOf "filter regex: " (checkRegex value)) := rfl
  have hfew : ¬maxFilters < [regexFilter value].length := by
    show ¬20 < 1
    decide
  rw [checkFilters, if_neg hfew, List.mapM_cons, hcheck, ← checkRegex_eq_none]
  show some (problemOf _ _ ++ []) = _ ↔ _
  rw [List.append_nil, Option.some.injEq, problemOf_eq_nil]

section Actions

/-- The texts of a payload are within their limit. -/
def PayloadFits (payload : List (String × Value)) : Prop :=
  ∀ key text, (key, Value.str text) ∈ payload → utf16Length text ≤ maxPayloadString

theorem checkPayloadStrings_eq_nil {payload : List (String × Value)} {part : String} :
    checkPayloadStrings (.obj payload) part = [] ↔ PayloadFits payload := by
  rw [checkPayloadStrings, List.filterMap_eq_nil_iff]
  constructor
  · intro h key text hmem
    have hnone := h _ hmem
    dsimp only at hnone
    split at hnone
    · cases hnone
    · omega
  · rintro h ⟨key, v⟩ hmem
    cases v with
    | str text => exact if_neg (Nat.not_lt.mpr (h key text hmem))
    | _ => rfl

theorem walkSteps_action {type : String} {payload : List (String × Value)} {rest : List Value}
    {depth n : ℕ} (htype : type ∉ ["", "if", "custom", "delay", "webhook"]) (hn : n < maxActions) :
    (walkSteps lang (action type payload :: rest) depth n).1 = [] ↔
      PayloadFits payload ∧ (walkSteps lang rest depth (n + 1)).1 = [] := by
  simp only [List.mem_cons, List.not_mem_nil, or_false, not_or] at htype
  obtain ⟨hempty, hif, hcustom, hdelay, hwebhook⟩ := htype
  have hstep (fields : List (String × Value)) : checkStepType lang fields type = [] := by
    rw [checkStepType]
    all_goals assumption
  have hparts : checkStepParts [("type", .str type), ("payload", .obj payload)] type =
      checkPayloadStrings (.obj payload) ("action \"" ++ type ++ "\" payload") := rfl
  have htyped : Value.own [("type", .str type), ("payload", .obj payload)] "type" = .str type := rfl
  rw [action, walkSteps, if_neg (by omega)]
  simp only [htyped, if_neg hempty, if_neg hif, hstep, hparts, List.append_nil,
    List.append_eq_nil_iff, checkPayloadStrings_eq_nil]

theorem walkSteps_ifAction {field operator : String} {value : ℚ} {actions rest : List Value} {n : ℕ}
    (hoperator : operator ≠ "regex") (hn : n < maxActions) :
    (walkSteps lang (ifAction field operator value actions :: rest) 0 n).1 = [] ↔
      (walkSteps lang actions 1 (n + 1)).1 = [] ∧
        (walkSteps lang rest 0 (walkSteps lang actions 1 (n + 1)).2).1 = [] := by
  have htyped : Value.own [("type", .str "if"), ("condition", .obj [("field", .str field),
      ("operator", .str operator), ("value", .num value)]), ("actions", .arr actions)] "type" =
        .str "if" := rfl
  have hactions : Value.own [("type", .str "if"), ("condition", .obj [("field", .str field),
      ("operator", .str operator), ("value", .num value)]), ("actions", .arr actions)] "actions" =
        .arr actions := rfl
  have hcondition : checkCondition (.obj [("field", .str field), ("operator", .str operator),
      ("value", .num value)]) = [] := by
    have hown : Value.own [("field", .str field), ("operator", .str operator),
        ("value", .num value)] "operator" = .str operator := rfl
    rw [checkCondition, hown]
    split <;> simp_all
  have hparts : checkStepParts [("type", .str "if"), ("condition", .obj [("field", .str field),
      ("operator", .str operator), ("value", .num value)]), ("actions", .arr actions)] "if" = [] :=
    (List.append_nil _).trans hcondition
  have hdepth : ¬maxNesting < 0 + 1 := by decide
  rw [ifAction, walkSteps, if_neg (by omega)]
  simp only [htyped, hactions, hparts, walkActions, if_neg hdepth, List.nil_append,
    List.append_eq_nil_iff, if_true, if_neg (by decide : "if" ≠ "")]

theorem payloadFits_text {key text : String} :
    PayloadFits [(key, .str text)] ↔ utf16Length text ≤ maxPayloadString := by
  simp [PayloadFits]

theorem payloadFits_texts {key text key' text' : String} :
    PayloadFits [(key, .str text), (key', .str text')] ↔
      utf16Length text ≤ maxPayloadString ∧ utf16Length text' ≤ maxPayloadString := by
  simp only [PayloadFits, List.mem_cons, List.not_mem_nil, or_false, Prod.mk.injEq, Value.str.injEq]
  constructor
  · intro h
    exact ⟨h key text (.inl ⟨rfl, rfl⟩), h key' text' (.inr ⟨rfl, rfl⟩)⟩
  · rintro ⟨h, h'⟩ _ _ (⟨rfl, rfl⟩ | ⟨rfl, rfl⟩)
    · exact h
    · exact h'

end Actions

section Limits

theorem limitFits_none (low : ℚ) : LimitFits low none :=
  nofun

/-- A cooldown that is not positive is left out, any other has to be in range. -/
def CooldownFits (cooldown : ℚ) : Prop :=
  cooldown ≤ 0 ∨ cooldown.isInt = true ∧ cooldown ≤ 86400

theorem limitFits_withCooldown {cooldown : ℚ} (hnone : config.cooldown = none) :
    LimitFits 0 (withCooldown config cooldown).cooldown ↔ CooldownFits cooldown := by
  rw [withCooldown, CooldownFits]
  by_cases hpos : 0 < cooldown
  · rw [if_pos hpos, or_iff_right (not_le.mpr hpos)]
    constructor
    · intro h
      obtain ⟨hint, -, hle⟩ := h cooldown rfl
      exact ⟨hint, hle⟩
    · rintro ⟨hint, hle⟩ _ ⟨⟩
      exact ⟨hint, hpos.le, hle⟩
  · rw [if_neg hpos, hnone]
    exact iff_of_true (limitFits_none 0) (.inl (not_lt.mp hpos))

@[simp] theorem actions_withCooldown (cooldown : ℚ) :
    (withCooldown config cooldown).actions = config.actions := by
  rw [withCooldown]
  split <;> rfl

@[simp] theorem interval_withCooldown (cooldown : ℚ) :
    (withCooldown config cooldown).interval = config.interval := by
  rw [withCooldown]
  split <;> rfl

/-- The interval of the heartbeat is an integer from 10 to 86400. -/
theorem limitFits_interval {low : ℚ} (hlow : low ≤ 10) (q : ℚ) :
    LimitFits low (some (max 10 (min 86400 (roundHalfUp q : ℚ)))) := by
  rintro _ ⟨⟩
  have hcast : max 10 (min 86400 (roundHalfUp q : ℚ)) = ((max 10 (min 86400 (roundHalfUp q)) : ℤ) : ℚ) := by
    push_cast
    rfl
  refine ⟨?_, hlow.trans (le_max_left _ _), max_le (by decide) (min_le_left _ _)⟩
  rw [hcast, Rat.isInt, Rat.den_intCast]
  rfl

end Limits

end Configs

section Acceptance

/-- When the config of a pattern passes the check. -/
def PatternName.Fits (lang : ScriptLanguage) (params : PatternParams) : PatternName → Prop
  | .welcome => str params "trigger" "follow" = "follow" →
    utf16Length (str params "channel" "") ≤ maxPayloadString
  | .autoReply => NoReferences (keywordsOf params "keywords" "hello") ∧
    CooldownFits (num lang params "cooldown" 0)
  | .command => utf16Length (escapeRegex (str params "prefix" "/")) +
      utf16Length (escapeRegex (str params "command" "")) + 3 ≤ maxRegexLength ∧
    ¬HasBackreference ((str params "prefix" "/").toList ++ (str params "command" "").toList)
  | .counter => True
  | .moderation => NoReferences (keywordsOf params "banned" "spam") ∧
    CooldownFits (num lang params "cooldown" 10)
  | .randomResponse => NoReferences (keywordsOf params "keywords" "!roll")
  | .donationThanks => True
  | .linkGuard => CooldownFits (num lang params "cooldown" 30)
  | .heartbeat => utf16Length (str params "channel" "") ≤ maxPayloadString
  | .raidHostThanks => utf16Length (str params "message" "") ≤ maxPayloadString
  | .thresholdAlert => utf16Length (withCounterName (counterName params "visits")
      (str params "message" "")) ≤ maxPayloadString

variable {config : GeneratedScriptConfig}

theorem capText_fits (text : String) : utf16Length (capText text) ≤ maxPayloadString :=
  (utf16Length_capText_le text).trans (by decide)

theorem walkSteps_reply {text : String} {n : ℕ} {depth : ℕ} (hn : n < maxActions) :
    (walkSteps lang [reply text] depth n).1 = [] ↔ utf16Length text ≤ maxPayloadString := by
  rw [reply, walkSteps_action (by decide) hn, payloadFits_text]
  exact and_iff_left (by rw [walkSteps])

theorem walkSteps_ifReply {field operator text : String} {value : ℚ} {n : ℕ}
    (hoperator : operator ≠ "regex") (hn : n + 1 < maxActions) :
    (walkSteps lang [ifAction field operator value [reply text]] 0 n).1 = [] ↔
      utf16Length text ≤ maxPayloadString := by
  rw [walkSteps_ifAction hoperator (by omega), walkSteps_reply hn]
  exact and_iff_left (by rw [walkSteps])

/-- A config without filters and limits. -/
theorem accepted_actions {trigger : String} {actions : List Value} :
    Accepted lang (.obj (GeneratedScriptConfig.fields { trigger, actions })) ↔
      (walkSteps lang actions 0 0).1 = [] := by
  rw [accepted_iff]
  exact ⟨fun h => h.2.1, fun h => ⟨rfl, h, limitFits_none 0, limitFits_none 1⟩⟩

/-- A config with one filter, a reply that is short enough and a cooldown. -/
theorem accepted_filter {trigger value text : String} {cooldown : ℚ} :
    Accepted lang (.obj (withCooldown
        { trigger
          filters := some [regexFilter value]
          actions := [reply (capText text)] } cooldown).fields) ↔
      isRegexSafe value = true ∧ CooldownFits cooldown := by
  rw [accepted_iff, filters_withCooldown, actions_withCooldown, interval_withCooldown,
    limitFits_withCooldown rfl]
  show checkFilters lang (.arr [regexFilter value]) = some [] ∧ _ ↔ _
  rw [checkFilters_regexFilter, walkSteps_reply (by decide)]
  exact and_congr_right fun _ =>
    ⟨fun h => h.2.1, fun h => ⟨capText_fits text, h, limitFits_none 1⟩⟩

theorem accepted_welcome :
    Accepted lang (.obj (welcome params).fields) ↔ PatternName.welcome.Fits lang params := by
  rw [welcome, PatternName.Fits]
  split
  next h =>
    rw [accepted_actions, walkSteps_action (by decide) (by decide), payloadFits_texts]
    constructor
    · rintro ⟨⟨hchannel, -⟩, -⟩ _
      exact hchannel
    · intro hchannel
      exact ⟨⟨hchannel h.1, capText_fits _⟩, by rw [walkSteps]⟩
  next h =>
    rw [accepted_actions, walkSteps_reply (by decide)]
    refine iff_of_true (capText_fits _) fun htrigger => ?_
    have hchannel : str params "channel" "" = "" := by
      by_contra hne
      exact h ⟨htrigger, hne⟩
    rw [hchannel]
    decide

theorem accepted_keywordReply {key fallback textKey : String} {cooldown : ℚ} :
    Accepted lang (.obj (keywordReply lang params key fallback textKey cooldown).fields) ↔
      NoReferences (keywordsOf params key fallback) ∧
        CooldownFits (num lang params "cooldown" cooldown) := by
  rw [keywordReply, accepted_filter, (keywordBoundaryRegex_safe _).1, keywordsOf]

theorem accepted_command :
    Accepted lang (.obj (command params).fields) ↔ PatternName.command.Fits lang params := by
  rw [accepted_iff]
  show checkFilters lang (.arr [regexFilter _]) = some [] ∧ _ ↔ _
  rw [checkFilters_regexFilter, (prefixRegex_safe _ _).1]
  refine and_iff_left ⟨?_, limitFits_none 0, limitFits_none 1⟩
  exact (walkSteps_reply (by decide)).mpr (capText_fits _)

theorem accepted_counter : Accepted lang (.obj (counter params).fields) := by
  rw [counter, accepted_actions, walkSteps_action (by decide) (by decide), payloadFits_text,
    walkSteps_reply (by decide)]
  exact ⟨utf16Length_counterName_le params, capText_fits _⟩

theorem accepted_randomResponse : Accepted lang (.obj (randomResponse params).fields) ↔
    PatternName.randomResponse.Fits lang params := by
  rw [accepted_iff]
  show checkFilters lang (.arr [regexFilter _]) = some [] ∧ _ ↔ _
  rw [checkFilters_regexFilter, (prefixesRegex_safe _).1]
  refine and_iff_left ⟨?_, limitFits_none 0, limitFits_none 1⟩
  refine (walkSteps_action (by decide) (by decide)).mpr ⟨?_, by rw [walkSteps]⟩
  intro key text hmem
  simp at hmem

theorem accepted_donationThanks : Accepted lang (.obj (donationThanks lang params).fields) := by
  rw [donationThanks, accepted_actions, walkSteps_ifReply (by decide) (by decide)]
  exact capText_fits _

theorem accepted_linkGuard :
    Accepted lang (.obj (linkGuard lang params).fields) ↔ PatternName.linkGuard.Fits lang params := by
  rw [linkGuard, accepted_filter]
  exact and_iff_right linkRegex_safe.1

theorem accepted_heartbeat :
    Accepted lang (.obj (heartbeat lang params).fields) ↔ PatternName.heartbeat.Fits lang params := by
  have hlimits {low : ℚ} (hlow : low ≤ 10) :=
    limitFits_interval hlow (num lang params "intervalSeconds" 300)
  rw [accepted_iff]
  refine Iff.trans ⟨fun h => h.2.1, fun h => ⟨rfl, h, hlimits (by decide), hlimits (by decide)⟩⟩ ?_
  show (walkSteps lang (if str params "channel" "" ≠ "" then _ else _) 0 0).1 = [] ↔ _
  rw [PatternName.Fits]
  split
  next =>
    rw [walkSteps_action (by decide) (by decide), payloadFits_texts]
    exact ⟨fun h => h.1.1, fun h => ⟨⟨h, capText_fits _⟩, by rw [walkSteps]⟩⟩
  next hchannel =>
    rw [walkSteps_action (by decide) (by decide), payloadFits_texts, not_not.mp hchannel]
    exact iff_of_true ⟨⟨by decide, capText_fits _⟩, by rw [walkSteps]⟩ (by decide)

theorem accepted_raidHostThanks : Accepted lang (.obj (raidHostThanks lang params).fields) ↔
    PatternName.raidHostThanks.Fits lang params := by
  rw [raidHostThanks, accepted_actions]
  split
  · exact walkSteps_ifReply (by decide) (by decide)
  · exact walkSteps_reply (by decide)

theorem accepted_thresholdAlert : Accepted lang (.obj (thresholdAlert lang params).fields) ↔
    PatternName.thresholdAlert.Fits lang params := by
  rw [thresholdAlert, accepted_actions, walkSteps_action (by decide) (by decide), payloadFits_text,
    walkSteps_ifReply (by decide) (by decide)]
  exact and_iff_right (utf16Length_counterName_le params)

theorem accepted_generate (lang : ScriptLanguage) (pattern : PatternName) (params : PatternParams) :
    Accepted lang (.obj (pattern.generate lang params).fields) ↔ pattern.Fits lang params := by
  cases pattern with
  | welcome => exact accepted_welcome
  | autoReply => exact accepted_keywordReply
  | command => exact accepted_command
  | counter => exact iff_of_true accepted_counter trivial
  | moderation => exact accepted_keywordReply
  | randomResponse => exact accepted_randomResponse
  | donationThanks => exact iff_of_true accepted_donationThanks trivial
  | linkGuard => exact accepted_linkGuard
  | heartbeat => exact accepted_heartbeat
  | raidHostThanks => exact accepted_raidHostThanks
  | thresholdAlert => exact accepted_thresholdAlert

/-- The filters of a pattern: none, or a regular expression that may be compiled. -/
theorem filters_generate (lang : ScriptLanguage) (pattern : PatternName) (params : PatternParams) :
    (pattern.generate lang params).filters = none ∨
      ∃ value, (pattern.generate lang params).filters = some [regexFilter value] ∧
        looksDangerous value = false := by
  cases pattern with
  | welcome =>
    left
    show (welcome params).filters = none
    rw [welcome]
    split <;> rfl
  | autoReply | moderation =>
    refine .inr ⟨_, filters_withCooldown _ _, (keywordBoundaryRegex_safe _).2⟩
  | command => exact .inr ⟨_, rfl, (prefixRegex_safe _ _).2⟩
  | randomResponse => exact .inr ⟨_, rfl, (prefixesRegex_safe _).2⟩
  | linkGuard => exact .inr ⟨_, filters_withCooldown _ _, linkRegex_safe.2⟩
  | counter | donationThanks | heartbeat | raidHostThanks | thresholdAlert => exact .inl rfl

/-- The check of a generated config does not throw. -/
theorem validateScriptConfig_generate (lang : ScriptLanguage) (pattern : PatternName)
    (params : PatternParams) :
    ∃ problems, validateScriptConfig lang (.obj (pattern.generate lang params).fields) =
      some problems := by
  have hfilters : ∃ problems, checkFilters lang
      (((pattern.generate lang params).filters.map Value.arr).getD .undefined) = some problems := by
    rcases filters_generate lang pattern params with hnone | ⟨value, hsome, -⟩
    · rw [hnone]
      exact ⟨[], rfl⟩
    · rw [hsome]
      exact ⟨problemOf "filter regex: " (checkRegex value) ++ [], rfl⟩
  have hlimit (low : ℚ) (limit : Option ℚ) (problem : String) : ∃ problems,
      checkLimit lang ((limit.map Value.num).getD .undefined) (isBetween low 86400) problem =
        some problems := by
    cases limit with
    | none => exact ⟨[], rfl⟩
    | some q => exact ⟨_, rfl⟩
  obtain ⟨filters, hfilters⟩ := hfilters
  obtain ⟨cooldown, hcooldown⟩ := hlimit 0 (pattern.generate lang params).cooldown
    "cooldown must be an integer between 0 and 86400"
  obtain ⟨interval, hinterval⟩ := hlimit 1 (pattern.generate lang params).interval
    "interval must be an integer between 1 and 86400"
  rw [validateScriptConfig, own_filters, own_cooldown, own_interval, own_maxExecutionMs, hfilters,
    hcooldown, hinterval]
  exact ⟨_, rfl⟩

end Acceptance

section Route

/-- What a body asks for, if its fields are in order. -/
structure Requested (body : List (String × Value)) (botId name : String) (pattern : PatternName)
    (params : PatternParams) : Prop where
  bot_given : Value.own body "botId" = .str botId ∧ botId ≠ ""
  name_given : Value.own body "name" = .str name ∧ name ≠ "" ∧ utf16Length name ≤ 100
  pattern_given : Value.own body "pattern" = .str pattern.id
  params_eq : params = paramsOf body
  required_given : ∀ key ∈ pattern.required, isMissing params key = false

theorem getPattern_eq_some {id : String} {pattern : PatternName} :
    PatternName.getPattern id = some pattern ↔ pattern.id = id := by
  constructor
  · intro h
    simpa using List.find?_some h
  · rintro rfl
    cases pattern <;> rfl

theorem requiredText_eq_ok {body : List (String × Value)} {field text : String} :
    requiredText body field = .ok text ↔ Value.own body field = .str text ∧ text ≠ "" := by
  rw [requiredText]
  split
  next given hgiven =>
    rw [hgiven, Value.str.injEq]
    split
    next hempty =>
      refine iff_of_false (fun h => by cases h) ?_
      rintro ⟨rfl, hne⟩
      exact hne hempty
    next hne =>
      rw [Except.ok.injEq]
      constructor
      · rintro rfl
        exact ⟨rfl, hne⟩
      · exact fun h => h.1
  next hother => exact iff_of_false (fun h => by cases h) fun h => hother text h.1

theorem checkGenerated_generate (lang : ScriptLanguage) (pattern : PatternName)
    (params : PatternParams) :
    ∃ result, checkGenerated lang (pattern.generate lang params) = some result ∧
      (result = .ok () ↔ pattern.Fits lang params ∧
        (pattern.generate lang params).trigger ∈ Backup.scriptTriggers) := by
  obtain ⟨problems, hproblems⟩ := validateScriptConfig_generate lang pattern params
  have haccepted : pattern.Fits lang params ↔ problems = [] := by
    rw [← accepted_generate, Accepted, hproblems, Option.some.injEq]
  rw [checkGenerated, hproblems, haccepted]
  refine ⟨_, rfl, ?_⟩
  dsimp only
  by_cases hnone : problems = []
  · rw [if_neg (not_not.mpr hnone)]
    split
    next htrigger => exact iff_of_true rfl ⟨hnone, htrigger⟩
    next htrigger => exact iff_of_false (fun h => by cases h) fun h => htrigger h.2
  · rw [if_pos hnone]
    exact iff_of_false (fun h => by cases h) fun h => hnone h.1

theorem require_eq_ok {ok : Bool} {refusal : Refusal} {u : Unit} :
    require ok refusal = .ok u ↔ ok = true := by
  rw [require]
  split
  next h => exact iff_of_true rfl h
  next h => exact iff_of_false nofun h

theorem patternOf_eq_ok {id : String} {pattern : PatternName} :
    patternOf id = .ok pattern ↔ pattern.id = id := by
  rw [patternOf, ← getPattern_eq_some]
  split
  next found hfound => rw [hfound, Except.ok.injEq, Option.some.injEq]
  next hnone => exact iff_of_false nofun fun h => nomatch hnone.symm.trans h

theorem generateRequest_eq_ok {hasBot : String → Bool} {body : List (String × Value)}
    {botId name : String} {pattern : PatternName} {params : PatternParams} :
    generateRequest hasBot body = .ok (botId, name, pattern, params) ↔
      Requested body botId name pattern params ∧ hasBot botId = true := by
  simp only [generateRequest, Except.bind_eq_ok_iff, requiredText_eq_ok, require_eq_ok,
    patternOf_eq_ok, decide_eq_true_eq]
  constructor
  · rintro ⟨botId', hbot, name', hname, -, hlong, id, hid, pattern', rfl, -, howned, -, hgiven, ⟨⟩⟩
    refine ⟨⟨hbot, ⟨hname.1, hname.2, hlong⟩, hid.1, rfl, fun key hkey => ?_⟩, howned⟩
    exact Bool.eq_false_iff.mpr (List.filter_eq_nil_iff.mp hgiven key hkey)
  · rintro ⟨h, howned⟩
    have hid : pattern.id ≠ "" := by cases pattern <;> decide
    obtain ⟨hbot, hname, hpattern, rfl, hrequired⟩ := h
    refine ⟨botId, hbot, name, ⟨hname.1, hname.2.1⟩, (), hname.2.2, pattern.id, ⟨hpattern, hid⟩,
      pattern, rfl, (), howned, (), List.filter_eq_nil_iff.mpr fun key hkey => ?_, rfl⟩
    exact Bool.eq_false_iff.mp (hrequired key hkey)

end Route

/-- The request for a script from a pattern is always answered, and makes a script exactly when its
    fields are in order, the bot is the client's, the parameters fit the pattern and the trigger is
    supported. The script then has the generated config, which passes the check of configs, and its
    regular expression is one that the script engine compiles. -/
theorem generateScript_iff (lang : ScriptLanguage) (hasBot : String → Bool)
    (body : List (String × Value)) :
    ∃ result, generateScript lang hasBot body = some result ∧
      (∀ script, result = .ok script ↔ ∃ botId name pattern params,
        Requested body botId name pattern params ∧ hasBot botId = true ∧
          pattern.Fits lang params ∧
          (pattern.generate lang params).trigger ∈ Backup.scriptTriggers ∧
          script = ⟨botId, name, (pattern.generate lang params).trigger,
            pattern.generate lang params, (Value.own body "enabled").orElse (.bool true)⟩) ∧
      ∀ script, result = .ok script → Accepted lang (.obj script.config.fields) ∧
        ∀ filters value, script.config.filters = some filters → regexFilter value ∈ filters →
          looksDangerous value = false := by
  cases hrequest : generateRequest hasBot body with
  | error refusal =>
    refine ⟨.error refusal, by rw [generateScript, hrequest], fun script => ?_, nofun⟩
    refine iff_of_false nofun ?_
    rintro ⟨botId, name, pattern, params, hrequested, howned, -⟩
    have hok := generateRequest_eq_ok.mpr ⟨hrequested, howned⟩
    rw [hrequest] at hok
    cases hok
  | ok request =>
    obtain ⟨botId, name, pattern, params⟩ := request
    obtain ⟨checked, hchecked, hok⟩ := checkGenerated_generate lang pattern params
    have hresult : generateScript lang hasBot body = some (checked.map fun _ =>
        ⟨botId, name, (pattern.generate lang params).trigger, pattern.generate lang params,
          (Value.own body "enabled").orElse (.bool true)⟩) := by
      rw [generateScript, hrequest]
      show (checkGenerated lang (pattern.generate lang params)).map _ = _
      rw [hchecked]
      rfl
    refine ⟨_, hresult, fun script => ?_, fun script hscript => ?_⟩
    · rw [Except.map_eq_ok_iff]
      constructor
      · rintro ⟨⟨⟩, rfl, rfl⟩
        obtain ⟨hrequested, howned⟩ := generateRequest_eq_ok.mp hrequest
        obtain ⟨hfits, htrigger⟩ := hok.mp rfl
        exact ⟨botId, name, pattern, params, hrequested, howned, hfits, htrigger, rfl⟩
      · rintro ⟨botId', name', pattern', params', hrequested, howned, hfits, htrigger, rfl⟩
        have hother := generateRequest_eq_ok.mpr ⟨hrequested, howned⟩
        rw [hrequest] at hother
        cases hother
        exact ⟨(), hok.mpr ⟨hfits, htrigger⟩, rfl⟩
    · obtain ⟨⟨⟩, rfl, rfl⟩ := Except.map_eq_ok_iff.mp hscript
      refine ⟨(accepted_generate lang pattern params).mpr (hok.mp rfl).1, ?_⟩
      intro filters value hfilters hmem
      rcases filters_generate lang pattern params with hnone | ⟨other, hsome, hsafe⟩
      · rw [hnone] at hfilters
        cases hfilters
      · rw [hsome] at hfilters
        cases hfilters
        have heq : regexFilter value = regexFilter other := List.mem_singleton.mp hmem
        simp only [regexFilter, Value.obj.injEq, List.cons.injEq, Prod.mk.injEq, Value.str.injEq,
          true_and, and_true] at heq
        rw [heq]
        exact hsafe

end BotHive.Scripts
