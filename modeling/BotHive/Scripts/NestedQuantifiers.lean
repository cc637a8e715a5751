import BotHive.Library.RegexSyntax
import BotHive.Scripts.RegexAgreement

/-!
# Patterns with nested quantifiers

An unbounded quantifier below another one may backtrack without end. Both checks of patterns look for
it in the flat text: they see the nesting only if no parenthesis closes between the inner
quantifier and the end of the outer group.

## Main definitions

- `Refused`: a pattern that is neither saved nor compiled
- `Regex.plainlyNested`: an inner quantifier that the checks can see
- `wrapped`: a quantified group with a body in further parentheses

## Main results

- `refused_iff`: when a pattern with nested quantifiers is refused
- `refused_of_plainlyNested`: the checks refuse what they can see
- `wrapped_passes`: further parentheses around a body hide it from both checks
-/

namespace BotHive.Scripts

section Refusal

/-- A filter or a condition of a config has a pattern. -/
def UsesPattern (config : List (String × Value)) (pattern : String) : Prop :=
  (∃ fields, FilterOf config (.obj fields) ∧ Value.own fields "type" = .str "regex" ∧
    Value.own fields "value" = .str pattern) ∨
  ∃ fields, ConditionOf config (.obj fields) ∧ Value.own fields "operator" = .str "regex" ∧
    Value.own fields "value" = .str pattern

/-- A pattern that no check lets pass: it is not safe, no config with it is accepted, and no evaluation
    hands it to the compiler. -/
structure Refused [CaseMapping] (pattern : String) : Prop where
  notSafe : isRegexSafe pattern = false
  notSaved : ∀ (lang : ScriptLanguage) (config : List (String × Value)), UsesPattern config pattern →
    ¬ Accepted lang (.obj config)
  notCompiled : ∀ (lang : ScriptLanguage) (context : ScriptContext) (moment : Moment) (value : Value),
    .compiled pattern ∉ (matchesFilter lang context moment value).events ∧
    .compiled pattern ∉ (evaluateCondition lang context moment value).events

theorem not_accepted_of_not_safe {lang : ScriptLanguage} {config : List (String × Value)}
    {pattern : String} (h : isRegexSafe pattern = false) (huses : UsesPattern config pattern) :
    ¬ Accepted lang (.obj config) := by
  intro haccepted
  obtain ⟨fields, hfilter, htype, hvalue⟩ | ⟨fields, hcondition, hoperator, hvalue⟩ := huses
  · have hsafe := haccepted.filter_safe hfilter htype
    rw [valueText_of_str hvalue, h] at hsafe
    cases hsafe
  · have hsafe := haccepted.condition_safe hcondition hoperator
    rw [valueText_of_str hvalue, h] at hsafe
    cases hsafe

variable [CaseMapping] {pattern : String}

/-- What is too long or looks dangerous is not compiled. -/
theorem not_compiled (h : maxRegexLength < utf16Length pattern ∨ looksDangerous pattern = true)
    (lang : ScriptLanguage) (context : ScriptContext) (moment : Moment) (value : Value) :
    .compiled pattern ∉ (matchesFilter lang context moment value).events ∧
    .compiled pattern ∉ (evaluateCondition lang context moment value).events := by
  have hlookup {p : String} {target : Option String} (hlong : ¬ maxRegexLength < utf16Length p) :
      .compiled pattern ∉ (testRegex lang moment p target).events := by
    intro hmem
    obtain ⟨rfl, hquiet⟩ := compiled_testRegex hmem
    rcases h with hlong' | hdangerous
    · exact hlong hlong'
    · rw [hdangerous] at hquiet
      cases hquiet
  constructor
  · intro hmem
    obtain ⟨_, _, p, _, _, _, _, hlong, htested⟩ := mem_matchesFilter.mp hmem
    exact hlookup hlong htested
  · intro hmem
    obtain ⟨_, _, p, _, _, _, _, hlong, htested⟩ := mem_evaluateCondition.mp hmem
    exact hlookup hlong htested

/-- A filter with a pattern hands it to the compiler, unless the engine refuses it before. -/
theorem compiled_by_filter (hlong : ¬ maxRegexLength < utf16Length pattern)
    (hquiet : looksDangerous pattern = false) (lang : ScriptLanguage) :
    .compiled pattern ∈ (matchesFilter lang someContext someMoment
      (.obj [("type", .str "regex"), ("value", .str pattern)])).events :=
  mem_matchesFilter.mpr ⟨_, _, pattern, rfl, rfl, rfl, rfl, hlong, compiled_testRegex_first rfl hquiet⟩

theorem refused_iff_caught :
    Refused pattern ↔ maxRegexLength < utf16Length pattern ∨
      CaughtOnSave pattern.toList ∧ CaughtOnCompile pattern.toList := by
  rw [← looksDangerous_iff]
  constructor
  · intro h
    by_cases hlong : maxRegexLength < utf16Length pattern
    · exact .inl hlong
    refine .inr ⟨(isRegexSafe_eq_false_iff.mp h.notSafe).resolve_left hlong, ?_⟩
    by_contra hquiet
    have hcompiled := compiled_by_filter hlong (Bool.eq_false_of_not_eq_true hquiet) literalLanguage
    exact (h.notCompiled literalLanguage someContext someMoment _).1 hcompiled
  · intro h
    have hsafe : isRegexSafe pattern = false := isRegexSafe_eq_false_iff.mpr (h.imp_right (·.1))
    exact ⟨hsafe, fun _ _ => not_accepted_of_not_safe hsafe, not_compiled (h.imp_right (·.2))⟩

/-- **Nested quantifiers**: a pattern with an unbounded quantifier below another one is refused exactly
    when it is too long or both checks see something in its text. -/
theorem refused_iff (r : NestedRegex) :
    Refused r.1.pattern ↔ maxRegexLength < utf16Length r.1.pattern ∨
      CaughtOnSave r.1.text ∧ CaughtOnCompile r.1.text := by
  rw [refused_iff_caught, Regex.pattern, String.toList_ofList]

end Refusal

section Stripping

/-- A text that does not end in the middle of an escape. -/
def Whole (text : List Char) : Prop :=
  ∀ rest, stripEscapes (text ++ rest) = stripEscapes text ++ stripEscapes rest

theorem stripEscapes_cons {c : Char} (hc : c ≠ '\\') (rest : List Char) :
    stripEscapes (c :: rest) = c :: stripEscapes rest := by
  rw [stripEscapes]
  rintro _ _ rfl
  exact absurd rfl hc

theorem Whole.append {text text' : List Char} (h : Whole text) (h' : Whole text') :
    Whole (text ++ text') := by
  intro rest
  rw [List.append_assoc, h, h, h', List.append_assoc]

theorem Whole.cons {c : Char} {text : List Char} (hc : c ≠ '\\') (h : Whole text) :
    Whole (c :: text) := by
  intro rest
  rw [List.cons_append, stripEscapes_cons hc, stripEscapes_cons hc, h, List.cons_append]

theorem whole_of_no_backslash {text : List Char} (h : '\\' ∉ text) :
    Whole text ∧ stripEscapes text = text := by
  induction text with
  | nil => exact ⟨fun _ => rfl, rfl⟩
  | cons c rest ih =>
    have hc : c ≠ '\\' := fun heq => h (heq ▸ List.mem_cons_self)
    obtain ⟨hwhole, hstrip⟩ := ih fun hmem => h (List.mem_cons_of_mem _ hmem)
    exact ⟨hwhole.cons hc, by rw [stripEscapes_cons hc, hstrip]⟩

/-- An escape is whole. -/
theorem whole_escape (c : Char) : Whole ['\\', c] := by
  intro rest
  by_cases hline : isLineTerminator c = true
  · have hc : c ≠ '\\' := by
      rintro rfl
      exact absurd hline (by decide)
    simp [stripEscapes, hline, stripEscapes_cons hc]
  · simp [stripEscapes, hline]

/-- What ends in a character other than the backslash is whole. -/
theorem whole_of_last (text : List Char) {c : Char} (hc : c ≠ '\\') : Whole (text ++ [c]) := by
  induction text using stripEscapes.induct with
  | case1 => exact (whole_of_no_backslash (by simpa using hc.symm)).1
  | case2 d rest hline ih =>
    intro back
    have hback := ih back
    simp only [List.cons_append] at hback ⊢
    simp only [stripEscapes, hline, if_true, hback, List.cons_append]
  | case3 d rest hline ih =>
    intro back
    have hback := ih back
    simp only [List.cons_append, stripEscapes, hline, Bool.false_eq_true, if_false, hback]
  | case4 d rest hd ih =>
    by_cases heq : d = '\\'
    · -- a backslash that ends the text escapes what follows
      subst heq
      cases rest with
      | nil => exact whole_escape c
      | cons e rest => exact (hd e rest rfl rfl).elim
    · exact ih.cons heq

theorem of_mem_stripEscapes {c : Char} {text : List Char} (h : c ∈ stripEscapes text) :
    c ∈ text ∨ c = '_' := by
  induction text using stripEscapes.induct with
  | case1 => cases h
  | case2 d rest hline ih =>
    simp only [stripEscapes, hline, if_true] at h
    rcases List.mem_cons.mp h with rfl | hmem
    · exact .inl List.mem_cons_self
    · exact (ih hmem).imp_left (List.mem_cons_of_mem _)
  | case3 d rest hline ih =>
    simp only [stripEscapes, hline, Bool.false_eq_true, if_false, List.mem_cons] at h
    rcases h with rfl | rfl | hmem
    · exact .inr rfl
    · exact .inr rfl
    · exact (ih hmem).imp_left fun hrest => List.mem_cons_of_mem _ (List.mem_cons_of_mem _ hrest)
  | case4 d rest hd ih =>
    have hcons : stripEscapes (d :: rest) = d :: stripEscapes rest := by
      rw [stripEscapes]
      exact hd
    rw [hcons] at h
    rcases List.mem_cons.mp h with rfl | hmem
    · exact .inl List.mem_cons_self
    · exact (ih hmem).imp_left (List.mem_cons_of_mem _)

end Stripping

section Syntax

/-- What a text that is not scanned as syntax contains none of. -/
def scanned : List Char :=
  ['\\', '(', ')', '[']

theorem not_scanned_digitsText (n : List (Fin 10)) : ∀ c ∈ digitsText n, c ∉ scanned := by
  have hdigit : ∀ d : Fin 10, Nat.digitChar d.val ∉ scanned := by decide
  intro c hmem
  obtain ⟨d, -, rfl⟩ := List.mem_map.mp hmem
  exact hdigit d

theorem not_scanned_quantifierText (q : Option Quantifier) :
    ∀ c ∈ quantifierText q, c ∉ scanned := by
  cases q with
  | none => exact fun _ h => nomatch h
  | some q =>
    have hlazy : ∀ c ∈ (if q.lazy then ['?'] else []), c ∉ scanned := by
      cases q.lazy <;> simp [scanned]
    have hdigits := not_scanned_digitsText
    refine List.forall_mem_append.mpr ⟨?_, hlazy⟩
    cases q.repetition with
    | star | plus | optional => simp [Repetition.text, scanned]
    | exactly n =>
      refine List.forall_mem_cons.mpr ⟨by decide, List.forall_mem_append.mpr ⟨hdigits n, ?_⟩⟩
      simp [scanned]
    | atLeast n =>
      refine List.forall_mem_cons.mpr ⟨by decide, List.forall_mem_append.mpr ⟨hdigits n, ?_⟩⟩
      simp [scanned]
    | between n m =>
      refine List.forall_mem_cons.mpr ⟨by decide, List.forall_mem_append.mpr ⟨hdigits n, ?_⟩⟩
      refine List.forall_mem_cons.mpr ⟨by decide, List.forall_mem_append.mpr ⟨hdigits m, ?_⟩⟩
      simp [scanned]

theorem no_backslash_quantifierText (q : Option Quantifier) : '\\' ∉ quantifierText q :=
  fun hmem => not_scanned_quantifierText q _ hmem (by decide)

/-- An unbounded quantifier starts with one of three signs. -/
theorem quantifierText_of_unbounded {q : Option Quantifier} (h : isUnbounded q = true) :
    ∃ sign rest, quantifierText q = sign :: rest ∧ sign ∈ ['+', '*', '{'] := by
  cases q with
  | none => cases h
  | some q =>
    obtain ⟨repetition, lazy⟩ := q
    cases repetition with
    | star => exact ⟨'*', _, rfl, by simp⟩
    | plus => exact ⟨'+', _, rfl, by simp⟩
    | atLeast n => exact ⟨'{', _, rfl, by simp⟩
    | _ => cases h

theorem whole_atom (a : Atom) : Whole a.text := by
  cases a with
  | char c =>
    have hc : '\\' ≠ c.char := fun heq => c.plain (heq ▸ List.mem_cons_self)
    exact (whole_of_no_backslash (by simpa [Atom.text] using hc)).1
  | escape c => exact whole_escape c
  | set negated items =>
    have hlast := whole_of_last ('[' :: ((if negated then ['^'] else []) ++ items.flatMap ClassItem.text))
      (c := ']') (by decide)
    simpa [Atom.text] using hlast

theorem whole_kind (kind : GroupKind) : Whole kind.text := by
  cases kind with
  | capturing => exact fun _ => rfl
  | named name => exact whole_of_last ('?' :: '<' :: name) (by decide)
  | modified flags => exact whole_of_last ('?' :: flags) (by decide)
  | lookahead negative => exact (whole_of_no_backslash (by cases negative <;> decide)).1
  | lookbehind negative => exact (whole_of_no_backslash (by cases negative <;> decide)).1

/-- The text of a quantifier has nothing to strip. -/
theorem whole_quantifier (q : Option Quantifier) :
    Whole (quantifierText q) ∧ stripEscapes (quantifierText q) = quantifierText q :=
  whole_of_no_backslash (no_backslash_quantifierText q)

/-- No regular expression ends in the middle of an escape. -/
theorem whole_text (r : Regex) : Whole r.text := by
  induction r with
  | empty => exact fun _ => rfl
  | atom a q => exact (whole_atom a).append (whole_quantifier q).1
  | group kind body q ih =>
    have hclose : Whole (')' :: quantifierText q) := (whole_quantifier q).1.cons (by decide)
    exact ((whole_kind kind).append (ih.append hclose)).cons (by decide)
  | seq r s ihr ihs => exact ihr.append ihs
  | alt r s ihr ihs => exact ihr.append (ihs.cons (by decide))

theorem stripEscapes_group (kind : GroupKind) (body : Regex) (q : Option Quantifier) :
    stripEscapes (Regex.group kind body q).text =
      '(' :: (stripEscapes kind.text ++ (stripEscapes body.text ++ ')' :: quantifierText q)) := by
  rw [Regex.text, stripEscapes_cons (by decide), whole_kind kind, whole_text body,
    stripEscapes_cons (by decide), (whole_quantifier q).2]

/-- The signs of unbounded quantifiers are not stripped. -/
theorem sign_of_hasUnbounded {r : Regex} (h : r.hasUnbounded = true) :
    ∃ sign ∈ stripEscapes r.text, sign ∈ ['+', '*', '{'] := by
  have hquantifier {q : Option Quantifier} (hq : isUnbounded q = true) :
      ∃ sign ∈ quantifierText q, sign ∈ ['+', '*', '{'] := by
    obtain ⟨sign, rest, htext, hsign⟩ := quantifierText_of_unbounded hq
    exact ⟨sign, htext ▸ List.mem_cons_self, hsign⟩
  induction r with
  | empty => cases h
  | atom a q =>
    obtain ⟨sign, hmem, hsign⟩ := hquantifier h
    refine ⟨sign, ?_, hsign⟩
    rw [Regex.text, whole_atom a, (whole_quantifier q).2]
    exact List.mem_append_right _ hmem
  | group kind body q ih =>
    rw [stripEscapes_group]
    rcases Bool.or_eq_true_iff.mp h with hq | hbody
    · obtain ⟨sign, hmem, hsign⟩ := hquantifier hq
      exact ⟨sign, by simp [hmem], hsign⟩
    · obtain ⟨sign, hmem, hsign⟩ := ih hbody
      exact ⟨sign, by simp [hmem], hsign⟩
  | seq r s ihr ihs =>
    rw [Regex.text, whole_text r]
    rcases Bool.or_eq_true_iff.mp h with hr | hs
    · obtain ⟨sign, hmem, hsign⟩ := ihr hr
      exact ⟨sign, List.mem_append_left _ hmem, hsign⟩
    · obtain ⟨sign, hmem, hsign⟩ := ihs hs
      exact ⟨sign, List.mem_append_right _ hmem, hsign⟩
  | alt r s ihr ihs =>
    rw [Regex.text, whole_text r, stripEscapes_cons (by decide)]
    rcases Bool.or_eq_true_iff.mp h with hr | hs
    · obtain ⟨sign, hmem, hsign⟩ := ihr hr
      exact ⟨sign, List.mem_append_left _ hmem, hsign⟩
    · obtain ⟨sign, hmem, hsign⟩ := ihs hs
      exact ⟨sign, List.mem_append_right _ (List.mem_cons_of_mem _ hmem), hsign⟩

end Syntax

section Seen

/-- Whether some group with an unbounded quantifier has one in its body, and no parenthesis closes
    within the group. -/
def plainlyNested : Regex → Bool
  | .empty => false
  | .atom _ _ => false
  | .group kind body q =>
    (isUnbounded q && body.hasUnbounded && !(kind.text ++ body.text).elem ')') || plainlyNested body
  | .seq r s => plainlyNested r || plainlyNested s
  | .alt r s => plainlyNested r || plainlyNested s

theorem FlatlyNested.append {inner text : List Char} (h : FlatlyNested inner text)
    (before after : List Char) : FlatlyNested inner (before ++ (text ++ after)) := by
  obtain ⟨front, opened, sign, closed, outer, back, rfl, hopened, hclosed, hsign, houter⟩ := h
  exact ⟨before ++ front, opened, sign, closed, outer, back ++ after, by simp, hopened, hclosed, hsign,
    houter⟩

theorem FlatlyNested.mono {inner inner' text : List Char} (hsub : inner ⊆ inner')
    (h : FlatlyNested inner text) : FlatlyNested inner' text := by
  obtain ⟨front, opened, sign, closed, outer, back, rfl, hopened, hclosed, hsign, houter⟩ := h
  exact ⟨front, opened, sign, closed, outer, back, rfl, hopened, hclosed, hsub hsign, houter⟩

/-- A group with a sign in its body and a quantifier, in which no parenthesis closes. -/
theorem flatlyNested_group {inner kind body : List Char} {sign outer : Char} (hkind : ')' ∉ kind)
    (hbody : ')' ∉ body) (hmem : sign ∈ body) (hsign : sign ∈ inner) (houter : outer ∈ quantifierSigns)
    (back : List Char) : FlatlyNested inner ('(' :: (kind ++ (body ++ ')' :: outer :: back))) := by
  obtain ⟨opened, closed, rfl⟩ := List.append_of_mem hmem
  rw [List.mem_append, List.mem_cons, not_or, not_or] at hbody
  refine ⟨[], kind ++ opened, sign, closed, outer, back, by simp, ?_, hbody.2.2, hsign, houter⟩
  rw [List.mem_append, not_or]
  exact ⟨hkind, hbody.1⟩

theorem not_mem_stripEscapes {text : List Char} (h : ')' ∉ text) : ')' ∉ stripEscapes text := by
  intro hmem
  rcases of_mem_stripEscapes hmem with hold | hnew
  · exact h hold
  · exact absurd hnew (by decide)

/-- What is plainly nested is seen in the text and in the stripped text. -/
theorem flatlyNested_of_plainlyNested {r : Regex} (h : plainlyNested r = true) :
    FlatlyNested ['+', '*', '{'] r.text ∧ FlatlyNested ['+', '*', '{'] (stripEscapes r.text) := by
  induction r with
  | empty => cases h
  | atom a q => cases h
  | group kind body q ih =>
    rcases Bool.or_eq_true_iff.mp h with hhere | hbody
    · obtain ⟨hnested, hplain⟩ := Bool.and_eq_true_iff.mp hhere
      obtain ⟨hq, hunbounded⟩ := Bool.and_eq_true_iff.mp hnested
      have hno : ')' ∉ kind.text ++ body.text := by simpa using hplain
      obtain ⟨hkind, hbody⟩ := not_or.mp (fun hor => hno (List.mem_append.mpr hor))
      obtain ⟨outer, back, hquantifier, houter⟩ := quantifierText_of_unbounded hq
      obtain ⟨sign, hmem, hsign⟩ := sign_of_hasUnbounded hunbounded
      have houter' : outer ∈ quantifierSigns := by
        simp only [List.mem_cons, List.not_mem_nil, or_false] at houter
        rcases houter with rfl | rfl | rfl <;> decide
      have hmem' : sign ∈ body.text := (of_mem_stripEscapes hmem).resolve_right <| by
        rintro rfl
        exact absurd hsign (by decide)
      rw [stripEscapes_group, Regex.text, hquantifier]
      exact ⟨flatlyNested_group hkind hbody hmem' hsign houter' back,
        flatlyNested_group (not_mem_stripEscapes hkind) (not_mem_stripEscapes hbody) hmem hsign houter'
          back⟩
    · obtain ⟨htext, hstrip⟩ := ih hbody
      rw [stripEscapes_group, Regex.text]
      exact ⟨by simpa using htext.append ('(' :: kind.text) (')' :: quantifierText q),
        by simpa using hstrip.append ('(' :: stripEscapes kind.text) (')' :: quantifierText q)⟩
  | seq r s ihr ihs =>
    rw [Regex.text, whole_text r]
    rcases Bool.or_eq_true_iff.mp h with hr | hs
    · exact ⟨(ihr hr).1.append [] s.text, (ihr hr).2.append [] (stripEscapes s.text)⟩
    · exact ⟨by simpa using (ihs hs).1.append r.text [],
        by simpa using (ihs hs).2.append (stripEscapes r.text) []⟩
  | alt r s ihr ihs =>
    rw [Regex.text, whole_text r, stripEscapes_cons (by decide)]
    rcases Bool.or_eq_true_iff.mp h with hr | hs
    · exact ⟨(ihr hr).1.append [] ('|' :: s.text), (ihr hr).2.append [] ('|' :: stripEscapes s.text)⟩
    · exact ⟨by simpa using (ihs hs).1.append (r.text ++ ['|']) [],
        by simpa using (ihs hs).2.append (stripEscapes r.text ++ ['|']) []⟩

/-- The checks refuse an inner quantifier that they can see, at any depth of the pattern. -/
theorem refused_of_plainlyNested [CaseMapping] {r : Regex} (h : plainlyNested r = true) :
    Refused r.pattern := by
  obtain ⟨htext, hstrip⟩ := flatlyNested_of_plainlyNested h
  rw [refused_iff_caught, Regex.pattern, String.toList_ofList]
  exact .inr ⟨.inl htext, hstrip.mono (by decide)⟩

end Seen

section Hidden

/-- A regular expression without groups, classes and escapes. -/
def simple : Regex → Bool
  | .empty => true
  | .atom (.char _) _ => true
  | .atom _ _ => false
  | .group _ _ _ => false
  | .seq r s => simple r && simple s
  | .alt r s => simple r && simple s

/-- A body in parentheses. -/
def wrapped : ℕ → Regex → Regex
  | 0, body => body
  | depth + 1, body => .group .capturing (wrapped depth body) none

/-- A body in parentheses of which the outer ones are quantified. -/
def hidden (depth : ℕ) (body : Regex) : Regex :=
  .group .capturing (wrapped depth body) (some ⟨.plus, false⟩)

theorem text_wrapped (depth : ℕ) (body : Regex) :
    (wrapped depth body).text =
      List.replicate depth '(' ++ (body.text ++ List.replicate depth ')') := by
  induction depth with
  | zero => simp [wrapped]
  | succ depth ih =>
    rw [wrapped, Regex.text, ih, List.replicate_succ, List.replicate_succ' (n := depth) (a := ')')]
    simp [GroupKind.text, quantifierText]

theorem nested_hidden (depth : ℕ) {body : Regex} (h : body.hasUnbounded = true) :
    (hidden depth body).nested = true := by
  have hwrapped : (wrapped depth body).hasUnbounded = true := by
    induction depth with
    | zero => exact h
    | succ depth ih => simpa [wrapped, Regex.hasUnbounded, isUnbounded] using ih
  simp [hidden, Regex.nested, hwrapped, isUnbounded, Repetition.unbounded]

/-- The text of a simple body is not scanned as syntax. -/
theorem not_scanned_of_simple {body : Regex} (h : simple body = true) :
    ∀ c ∈ body.text, c ∉ scanned := by
  induction body with
  | empty => exact fun _ h => nomatch h
  | atom a q =>
    cases a with
    | char c =>
      refine List.forall_mem_append.mpr ⟨fun d hd => ?_, not_scanned_quantifierText q⟩
      obtain rfl := List.mem_singleton.mp hd
      have hplain := c.plain
      simp only [List.mem_cons, List.not_mem_nil, or_false, not_or] at hplain
      simp [scanned, hplain]
    | _ => cases h
  | group kind body q ih => cases h
  | seq r s ihr ihs =>
    obtain ⟨hr, hs⟩ := Bool.and_eq_true_iff.mp h
    exact List.forall_mem_append.mpr ⟨ihr hr, ihs hs⟩
  | alt r s ihr ihs =>
    obtain ⟨hr, hs⟩ := Bool.and_eq_true_iff.mp h
    exact List.forall_mem_append.mpr ⟨ihr hr, List.forall_mem_cons.mpr ⟨by decide, ihs hs⟩⟩

/-- A simple body does not begin with a question mark. -/
theorem head_of_simple {body : Regex} (h : simple body = true) {rest : List Char}
    (hhead : (body.text ++ rest).head? = some '?') : rest.head? = some '?' := by
  induction body generalizing rest with
  | empty => exact hhead
  | atom a q =>
    cases a with
    | char c =>
      have hc : c.char = '?' := Option.some.inj hhead
      exact absurd (hc ▸ c.plain) (by decide)
    | _ => cases h
  | group kind body q ih => cases h
  | seq r s ihr ihs =>
    obtain ⟨hr, hs⟩ := Bool.and_eq_true_iff.mp h
    rw [Regex.text, List.append_assoc] at hhead
    exact ihs hs (ihr hr hhead)
  | alt r s ihr ihs =>
    obtain ⟨hr, hs⟩ := Bool.and_eq_true_iff.mp h
    rw [Regex.text, List.append_assoc] at hhead
    cases ihr hr hhead

section Scanning

variable {depth : ℕ} {rest : List Char}

theorem parensBalanced_plain {text : List Char} (h : ∀ c ∈ text, c ∉ scanned) :
    parensBalanced .outside depth (text ++ rest) = parensBalanced .outside depth rest := by
  induction text with
  | nil => rfl
  | cons c text ih =>
    obtain ⟨hc, htext⟩ := List.forall_mem_cons.mp h
    simp only [scanned, List.mem_cons, List.not_mem_nil, or_false, not_or] at hc
    rw [List.cons_append, ← ih htext]
    conv_lhs => rw [parensBalanced.eq_def]
    dsimp only
    rw [if_neg hc.1, if_neg hc.2.2.2, if_neg hc.2.1, if_neg hc.2.2.1]

theorem parensBalanced_open (n : ℕ) :
    parensBalanced .outside depth (List.replicate n '(' ++ rest) =
      parensBalanced .outside (depth + n) rest := by
  induction n generalizing depth with
  | zero => rfl
  | succ n ih =>
    have hopen : parensBalanced .outside depth ('(' :: (List.replicate n '(' ++ rest)) =
        parensBalanced .outside (depth + 1) (List.replicate n '(' ++ rest) := rfl
    rw [List.replicate_succ, List.cons_append, hopen, ih, Nat.add_right_comm, Nat.add_assoc]

theorem parensBalanced_close (n : ℕ) :
    parensBalanced .outside (depth + n) (List.replicate n ')' ++ rest) =
      parensBalanced .outside depth rest := by
  induction n with
  | zero => rfl
  | succ n ih =>
    have hclose : parensBalanced .outside (depth + n + 1) (')' :: (List.replicate n ')' ++ rest)) =
        parensBalanced .outside (depth + n) (List.replicate n ')' ++ rest) := rfl
    rw [List.replicate_succ, List.cons_append, ← Nat.add_assoc, hclose, ih]

end Scanning

/-- Two closing parentheses in a row hide what is before them. -/
theorem not_flatlyNested {inner front back : List Char} (hinner : ')' ∉ inner) (hfront : ')' ∉ front)
    (hback : '(' ∉ back) : ¬ FlatlyNested inner (front ++ ')' :: ')' :: back) := by
  rintro ⟨before, opened, sign, closed, outer, after, htext, hopened, hclosed, hsign, houter⟩
  have hrun : ')' ∉ opened ++ sign :: closed := by
    rw [List.mem_append, List.mem_cons, not_or, not_or]
    exact ⟨hopened, fun heq => hinner (heq ▸ hsign), hclosed⟩
  -- the parenthesis that opens is in the front
  obtain ⟨run, rfl, hrest⟩ : ∃ run, front = before ++ '(' :: run ∧
      opened ++ sign :: (closed ++ ')' :: outer :: after) = run ++ ')' :: ')' :: back := by
    rcases List.append_eq_append_iff.mp htext with ⟨run, rfl, hrun'⟩ | ⟨run, rfl, hrun'⟩
    · have hmem : '(' ∈ ')' :: ')' :: back := hrun' ▸ by simp
      simp [hback] at hmem
    · cases run with
      | nil => cases hrun'
      | cons c run =>
        obtain ⟨rfl, hrest⟩ := List.cons_eq_cons.mp hrun'
        exact ⟨run, rfl, hrest⟩
  have hrun' : ')' ∉ run := fun hmem => hfront (by simp [hmem])
  have hsplit : (opened ++ sign :: closed) ++ ')' :: outer :: after = run ++ ')' :: ')' :: back := by
    simpa using hrest
  obtain ⟨-, hclose⟩ := (append_separator_inj hrun hrun' _ _).mp hsplit
  obtain ⟨rfl, -⟩ := List.cons_eq_cons.mp hclose
  exact absurd houter (by decide)

theorem text_hidden (depth : ℕ) (body : Regex) :
    (hidden depth body).text =
      List.replicate (depth + 1) '(' ++ (body.text ++ (List.replicate (depth + 1) ')' ++ ['+'])) := by
  rw [hidden, Regex.text, text_wrapped, List.replicate_succ, List.replicate_succ' (n := depth) (a := ')')]
  simp [GroupKind.text, quantifierText, Quantifier.text, Repetition.text]

section Texts

variable {depth : ℕ} {body : Regex}

/-- The text up to where the parentheses close. -/
def hiddenFront (depth : ℕ) (body : Regex) : List Char :=
  List.replicate (depth + 1) '(' ++ body.text

theorem text_hidden_split (depth : ℕ) (body : Regex) :
    (hidden (depth + 1) body).text =
      hiddenFront (depth + 1) body ++ ')' :: ')' :: (List.replicate depth ')' ++ ['+']) := by
  rw [text_hidden, hiddenFront, List.append_assoc, List.replicate_succ, List.replicate_succ]
  rfl

theorem not_mem_hiddenFront (h : simple body = true) : ')' ∉ hiddenFront depth body := by
  rw [hiddenFront, List.mem_append, not_or]
  refine ⟨fun hmem => ?_, fun hmem => not_scanned_of_simple h _ hmem (by decide)⟩
  exact absurd (List.eq_of_mem_replicate hmem) (by decide)

theorem no_backslash_hidden (h : simple body = true) : '\\' ∉ (hidden depth body).text := by
  have hbody : '\\' ∉ body.text := fun hmem => not_scanned_of_simple h _ hmem (by decide)
  have hparen (n : ℕ) (c : Char) (hc : '\\' ≠ c) : '\\' ∉ List.replicate n c :=
    fun hmem => hc (List.eq_of_mem_replicate hmem)
  rw [text_hidden]
  simp only [List.mem_append, not_or]
  exact ⟨hparen _ _ (by decide), hbody, hparen _ _ (by decide), by decide⟩

theorem not_flatlyNested_hidden (h : simple body = true) {inner : List Char} (hinner : ')' ∉ inner) :
    ¬ FlatlyNested inner (hidden (depth + 1) body).text := by
  rw [text_hidden_split]
  refine not_flatlyNested hinner (not_mem_hiddenFront h) fun hmem => ?_
  rcases List.mem_append.mp hmem with hparen | hplus
  · exact absurd (List.eq_of_mem_replicate hparen) (by decide)
  · exact absurd hplus (by decide)

theorem not_hasLookaround_hidden (h : simple body = true) :
    ¬ HasLookaround (hidden depth body).text := by
  rintro ⟨before, sign, after, htext, -⟩
  obtain ⟨back, hback⟩ : ∃ back, back = List.replicate (depth + 1) ')' ++ ['+'] := ⟨_, rfl⟩
  have hbody : '(' ∉ body.text ++ back := by
    rw [hback]
    simp only [List.mem_append, not_or]
    refine ⟨fun hmem => not_scanned_of_simple h _ hmem (by decide), fun hmem => ?_, by decide⟩
    exact absurd (List.eq_of_mem_replicate hmem) (by decide)
  rw [text_hidden, ← hback] at htext
  rcases List.append_eq_append_iff.mp htext with ⟨run, rfl, hrun⟩ | ⟨run, hrun, hrest⟩
  · exact hbody (hrun ▸ by simp)
  · cases run with
    | nil => exact hbody (by rw [← List.nil_append (body.text ++ back), ← hrest]; simp)
    | cons c run =>
      obtain ⟨rfl, hmark⟩ := List.cons_eq_cons.mp hrest
      cases run with
      | nil =>
        have hhead : (body.text ++ back).head? = some '?' := by
          have hmark' : '?' :: sign :: after = body.text ++ back := hmark
          rw [← hmark']
          rfl
        have hclose := head_of_simple h hhead
        rw [hback, List.replicate_succ] at hclose
        exact absurd (Option.some.inj hclose) (by decide)
      | cons d run =>
        obtain ⟨rfl, -⟩ := List.cons_eq_cons.mp hmark
        have hmem : '?' ∈ List.replicate (depth + 1) '(' := hrun ▸ by simp
        exact absurd (List.eq_of_mem_replicate hmem) (by decide)

theorem parensBalanced_hidden (h : simple body = true) :
    parensBalanced .outside 0 (hidden depth body).text = true := by
  rw [text_hidden, parensBalanced_open, parensBalanced_plain (not_scanned_of_simple h),
    parensBalanced_close]
  rfl

end Texts

/-- **Hidden quantifiers**: whatever a simple body is, both checks let it pass in a quantified group
    with further parentheses around it. -/
theorem hidden_passes (depth : ℕ) {body : Regex} (h : simple body = true)
    (hshort : utf16Length (hidden (depth + 1) body).pattern ≤ maxRegexLength) :
    isRegexSafe (hidden (depth + 1) body).pattern = true ∧
      looksDangerous (hidden (depth + 1) body).pattern = false := by
  have htext : (hidden (depth + 1) body).pattern.toList = (hidden (depth + 1) body).text :=
    String.toList_ofList
  have hno : '\\' ∉ (hidden (depth + 1) body).text := no_backslash_hidden h
  have hstrip := (whole_of_no_backslash hno).2
  constructor
  · by_contra hunsafe
    rcases isRegexSafe_eq_false_iff.mp (Bool.eq_false_of_not_eq_true hunsafe) with hlong | hcaught
    · exact absurd hshort (Nat.not_le_of_lt hlong)
    rw [htext] at hcaught
    obtain hflat | hback | hlook | hparens := hcaught
    · exact not_flatlyNested_hidden h (by decide) hflat
    · obtain ⟨before, digit, after, hsplit, -⟩ := hback
      rw [hsplit] at hno
      simp at hno
    · exact not_hasLookaround_hidden h hlook
    · rw [parensBalanced_hidden h] at hparens
      cases hparens
  · by_contra hdangerous
    have hcaught := looksDangerous_iff.mp (Bool.eq_true_of_not_eq_false hdangerous)
    rw [htext, CaughtOnCompile, hstrip] at hcaught
    exact not_flatlyNested_hidden h (by decide) hcaught

/-- The letter `a`, once or more, in two groups of which the outer one is repeated. -/
def hiddenLetters : Regex :=
  hidden 1 (.atom (.char ⟨'a', by decide⟩) (some ⟨.plus, false⟩))

/-- **The defect**: not every pattern with nested quantifiers is refused. -/
theorem not_refused_hiddenLetters :
    hiddenLetters.pattern = "((a+))+" ∧ ¬ ∀ r : NestedRegex, Refused r.1.pattern := by
  have hpattern : hiddenLetters.pattern = "((a+))+" := by decide
  refine ⟨hpattern, fun h => ?_⟩
  have hsafe := (h ⟨hiddenLetters, by decide⟩).notSafe
  rw [hpattern] at hsafe
  exact absurd hsafe (by decide)

end Hidden

end BotHive.Scripts
