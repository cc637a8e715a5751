import BotHive.Library.Separated
import BotHive.Metrics.Registry
import Mathlib.Tactic.NormNum

/-!
# The text of the metrics

A scrape gets the registry as text: comments about each metric, and one line for each sample, with
the labels between braces and their values quoted. A reader of the format takes a line apart
character by character.

## Main definitions

- `stripControlChars`, `escapeLabelValue`, `formatLabels`
- `MetricsRegistry.snapshot`: the text
- `Sample`, `LineReader`, `readExposition`: the reader of the format
- `samplesOf`: the samples that the operations on the registry amount to
- `PlainNumbers`, `MetricsCall.Plain`: the names and numbers that a line can hold

## Main results

- `readsTo_labelValue`: a quoted value reads back as it was, without its control characters
- `readSample_line`: a line reads back as its sample
- `readExposition_snapshot`: the text reads back as what the operations amount to, whatever texts
  the values of the labels are
-/

namespace BotHive.Metrics

open InsertionMap

/-- Whether a character is a control character or a line end. -/
def isControl (c : Char) : Bool :=
  c.toNat < 0x20 || c.toNat = 0x7f || c.toNat = 0x85 || c.toNat = 0x2028 || c.toNat = 0x2029

def stripControlChars (value : String) : String :=
  String.ofList (value.toList.map fun c => if isControl c then ' ' else c)

/-- Put a text in place of every occurrence of a character. -/
def replaceChar (c : Char) (text : List Char) (value : String) : String :=
  String.ofList (value.toList.flatMap fun d => if d = c then text else [d])

def escapeLabelValue (value : String) : String :=
  replaceChar '"' ['\\', '"'] (replaceChar '\\' ['\\', '\\'] (stripControlChars value))

namespace MetricsRegistry

def formatLabels (labels : Labels) : String :=
  if labels = [] then ""
  else "\x7b" ++ joinText ',' (labels.map fun l => l.1 ++ "=\"" ++ escapeLabelValue l.2 ++ "\"") ++ "\x7d"

variable (print : ℚ → String)

/-- The lines of a counter or a gauge. -/
def valueLines (kind : String) (e : SeriesKey × ℚ) : List String :=
  ["# HELP " ++ e.1.name ++ " " ++ e.1.name, "# TYPE " ++ e.1.name ++ " " ++ kind,
    e.1.name ++ formatLabels e.1.labels ++ " " ++ print e.2]

/-- The lines of a histogram. The total count is that of the last bucket. -/
def histogramLines (e : SeriesKey × List HistogramBucket) : List String :=
  let name := e.1.name
  let sorted := e.2.mergeSort fun a b => a.le ≤ b.le
  let last := sorted.getLast?.getD ⟨0, 0, 0⟩
  ["# HELP " ++ name ++ " " ++ name, "# TYPE " ++ name ++ " " ++ "histogram"] ++
    sorted.map (fun bucket =>
      name ++ "_bucket" ++ formatLabels (write "le" (print bucket.le) e.1.labels) ++ " " ++
        print bucket.count) ++
    [name ++ "_bucket" ++ formatLabels (write "le" "+Inf" e.1.labels) ++ " " ++ print last.count,
      name ++ "_sum" ++ formatLabels e.1.labels ++ " " ++ print last.sum,
      name ++ "_count" ++ formatLabels e.1.labels ++ " " ++ print last.count]

def snapshotLines (r : MetricsRegistry) : List String :=
  r.counters.entries.flatMap (valueLines print "counter") ++
    r.gauges.entries.flatMap (valueLines print "gauge") ++
    r.histograms.entries.flatMap (histogramLines print)

def snapshot (r : MetricsRegistry) : String :=
  joinText '\n' (snapshotLines print r)

end MetricsRegistry

/-- A sample of a series: its name, its labels and the text of its value. -/
structure Sample where
  name : String
  labels : Labels
  value : String
  deriving DecidableEq

/-- Where in a line the reader is. -/
inductive Place where
  | name
  | labelName
  | opening
  | labelValue
  | escape
  | closing
  | blank
  | value

/-- A line that has been read up to some place. -/
structure LineReader where
  place : Place
  name : List Char
  label : List Char
  text : List Char
  labels : Labels
  value : List Char

namespace LineReader

def start : LineReader :=
  ⟨.name, [], [], [], [], []⟩

/-- Read a character. -/
def next (s : LineReader) (c : Char) : Option LineReader :=
  match s.place with
  | .name =>
    if c = '{' then some { s with place := .labelName }
    else if c = ' ' then some { s with place := .value }
    else some { s with name := s.name ++ [c] }
  | .labelName =>
    if c = '=' then some { s with place := .opening } else some { s with label := s.label ++ [c] }
  | .opening => if c = '"' then some { s with place := .labelValue } else none
  | .labelValue =>
    if c = '"' then
      some { s with
        place := .closing
        labels := s.labels ++ [(String.ofList s.label, String.ofList s.text)]
        label := []
        text := [] }
    else if c = '\\' then some { s with place := .escape }
    else some { s with text := s.text ++ [c] }
  | .escape =>
    if c = '\\' ∨ c = '"' then some { s with place := .labelValue, text := s.text ++ [c] }
    else if c = 'n' then some { s with place := .labelValue, text := s.text ++ ['\n'] }
    else none
  | .closing =>
    if c = ',' then some { s with place := .labelName }
    else if c = '}' then some { s with place := .blank }
    else none
  | .blank => if c = ' ' then some { s with place := .value } else none
  | .value => if c = ' ' then none else some { s with value := s.value ++ [c] }

/-- The sample of a line that has been read to its end. -/
def finish (s : LineReader) : Option Sample :=
  match s.place with
  | .value => some ⟨String.ofList s.name, s.labels, String.ofList s.value⟩
  | _ => none

/-- Reading some characters leads from one place to another. -/
def ReadsTo (s : LineReader) (l : List Char) (t : LineReader) : Prop :=
  l.foldlM next s = some t

end LineReader

/-- Read the sample of a line. -/
def readSample (line : String) : Option Sample :=
  (line.toList.foldlM LineReader.next .start).bind LineReader.finish

/-- Whether a line is neither empty nor a comment. -/
def hasSample (line : String) : Bool :=
  match line.toList with
  | [] => false
  | c :: _ => c ≠ '#'

/-- Read the samples of a text. -/
def readExposition (text : String) : Option (List Sample) :=
  ((splitText '\n' text).filter hasSample).mapM readSample

section Samples

variable (print : ℚ → String)

/-- A sample as it comes out of the text. -/
def sample (name : String) (labels : Labels) (value : ℚ) : Sample :=
  ⟨name, labels.map fun l => (l.1, stripControlChars l.2), print value⟩

/-- The samples of a histogram of some values. -/
def histogramSamples (key : SeriesKey) (values : List ℚ) : List Sample :=
  HISTOGRAM_BUCKETS.map (fun le =>
      sample print (key.name ++ "_bucket") (write "le" (print le) key.labels)
        (values.countP (· ≤ le) : ℕ)) ++
    [sample print (key.name ++ "_bucket") (write "le" "+Inf" key.labels)
        (values.countP (· ≤ 10) : ℕ),
      sample print (key.name ++ "_sum") key.labels values.sum,
      sample print (key.name ++ "_count") key.labels (values.countP (· ≤ 10) : ℕ)]

/-- What some operations amount to, series by series. -/
def samplesOf (calls : List MetricsCall) : List Sample :=
  (seriesOf MetricsCall.counted calls).map (fun key =>
      sample print key.name key.labels (valuesOf MetricsCall.counted calls key).sum) ++
    (seriesOf MetricsCall.gauged calls).map (fun key =>
      sample print key.name key.labels
        ((valuesOf MetricsCall.gauged calls key).getLast?.getD 0)) ++
    (seriesOf MetricsCall.observed calls).flatMap fun key =>
      histogramSamples print key (valuesOf MetricsCall.observed calls key)

end Samples

/-- The characters of the names of metrics and labels. -/
def isNameChar (c : Char) : Bool :=
  c.isAlphanum || c = '_' || c = ':'

/-- A name of a metric or a label. -/
def PlainName (name : String) : Prop :=
  name ≠ "" ∧ ∀ c ∈ name.toList, isNameChar c = true

/-- Numbers are printed without blanks and control characters. -/
def PlainNumbers (print : ℚ → String) : Prop :=
  ∀ q, ∀ c ∈ (print q).toList, c ≠ ' ' ∧ isControl c = false

/-- The series of an operation has names that a line can hold. Nothing is asked of the values of
    its labels. -/
def SeriesKey.Plain (key : SeriesKey) : Prop :=
  PlainName key.name ∧ ∀ l ∈ key.labels, PlainName l.1

def MetricsCall.key : MetricsCall → SeriesKey
  | .incrementCounter name labels _ => ⟨name, labels⟩
  | .setGauge name _ labels => ⟨name, labels⟩
  | .observe name _ labels => ⟨name, labels⟩

section Escaping

variable {c d : Char} {value : String}

theorem isControl_stripControlChars (h : c ∈ (stripControlChars value).toList) :
    isControl c = false := by
  rw [stripControlChars, String.toList_ofList, List.mem_map] at h
  obtain ⟨d, _, rfl⟩ := h
  split
  · decide
  · rename_i hd
    exact eq_false_of_ne_true hd

/-- A character of a label's value in the text. -/
def escapeChar (c : Char) : List Char :=
  if c = '\\' then ['\\', '\\'] else if c = '"' then ['\\', '"'] else [c]

theorem toList_escapeLabelValue (value : String) :
    (escapeLabelValue value).toList = (stripControlChars value).toList.flatMap escapeChar := by
  rw [escapeLabelValue, replaceChar, replaceChar, String.toList_ofList, String.toList_ofList,
    List.flatMap_assoc]
  congr 1
  funext c
  rw [escapeChar]
  by_cases hbackslash : c = '\\'
  · subst hbackslash
    decide
  · rw [if_neg hbackslash, if_neg hbackslash, List.flatMap_singleton]

theorem isControl_of_mem_escape (h : c ∈ (escapeLabelValue value).toList) :
    isControl c = false := by
  rw [toList_escapeLabelValue, List.mem_flatMap] at h
  obtain ⟨d, hd, hc⟩ := h
  rw [escapeChar] at hc
  have hd' : isControl d = false := isControl_stripControlChars hd
  split at hc
  · rename_i hbackslash
    have hcd : c = '\\' := by simpa using hc
    rw [hcd]
    decide
  · split at hc
    · simp only [List.mem_cons, List.not_mem_nil, or_false] at hc
      rcases hc with rfl | rfl <;> decide
    · rw [List.mem_singleton.mp hc]
      exact hd'

theorem ne_of_isNameChar (hc : isNameChar c = true) (hd : isNameChar d = false) : c ≠ d := by
  rintro rfl
  exact absurd (hc.symm.trans hd) (by decide)

end Escaping

namespace LineReader

variable {s t u : LineReader} {l l' : List Char}

theorem ReadsTo.append (h : ReadsTo s l t) (h' : ReadsTo t l' u) : ReadsTo s (l ++ l') u := by
  rw [ReadsTo, List.foldlM_append, h]
  exact h'

theorem ReadsTo.cons {c : Char} (h : next s c = some t) (h' : ReadsTo t l u) :
    ReadsTo s (c :: l) u := by
  rw [ReadsTo, List.foldlM_cons, h]
  exact h'

theorem readsTo_nil (s : LineReader) : ReadsTo s [] s :=
  rfl

theorem readsTo_single {c : Char} (h : next s c = some t) : ReadsTo s [c] t :=
  (readsTo_nil t).cons h

/-- The name of the metric. -/
theorem readsTo_name (hs : s.place = .name) (hl : ∀ c ∈ l, isNameChar c = true) :
    ReadsTo s l { s with name := s.name ++ l } := by
  induction l generalizing s with
  | nil => simp [ReadsTo]
  | cons c rest ih =>
    have hc : isNameChar c = true := hl c List.mem_cons_self
    have hnext : next s c = some { s with name := s.name ++ [c] } := by
      rw [next, hs]
      show ite _ _ _ = _
      rw [if_neg (ne_of_isNameChar hc (by decide)), if_neg (ne_of_isNameChar hc (by decide))]
    have hrest := ih (s := { s with name := s.name ++ [c] }) hs fun d hd =>
      hl d (List.mem_cons_of_mem c hd)
    simpa using hrest.cons hnext

/-- The name of a label. -/
theorem readsTo_labelName (hs : s.place = .labelName) (hl : ∀ c ∈ l, isNameChar c = true) :
    ReadsTo s l { s with label := s.label ++ l } := by
  induction l generalizing s with
  | nil => simp [ReadsTo]
  | cons c rest ih =>
    have hc : isNameChar c = true := hl c List.mem_cons_self
    have hnext : next s c = some { s with label := s.label ++ [c] } := by
      rw [next, hs]
      show ite _ _ _ = _
      rw [if_neg (ne_of_isNameChar hc (by decide))]
    have hrest := ih (s := { s with label := s.label ++ [c] }) hs fun d hd =>
      hl d (List.mem_cons_of_mem c hd)
    simpa using hrest.cons hnext

/-- A character of a label's value. -/
theorem readsTo_escapeChar (hs : s.place = .labelValue) (c : Char) :
    ReadsTo s (escapeChar c) { s with text := s.text ++ [c] } := by
  have hescape : next s '\\' = some { s with place := .escape } := by rw [next, hs]; rfl
  rw [escapeChar]
  split
  · rename_i hbackslash
    subst hbackslash
    refine ReadsTo.cons hescape (readsTo_single ?_)
    rw [hs]
    rfl
  · split
    · rename_i hquote
      subst hquote
      refine ReadsTo.cons hescape (readsTo_single ?_)
      rw [hs]
      rfl
    · rename_i hbackslash hquote
      refine readsTo_single ?_
      rw [next, hs]
      show ite _ _ _ = _
      rw [if_neg hquote, if_neg hbackslash]

/-- **Quoting**: the value of a label reads back as it was, without its control characters. -/
theorem readsTo_labelValue (hs : s.place = .labelValue) (value : List Char) :
    ReadsTo s (value.flatMap escapeChar) { s with text := s.text ++ value } := by
  induction value generalizing s with
  | nil => simp [ReadsTo]
  | cons c rest ih =>
    have hrest := ih (s := { s with text := s.text ++ [c] }) hs
    rw [List.flatMap_cons]
    simpa using (readsTo_escapeChar hs c).append hrest

/-- The text of the value. -/
theorem readsTo_value (hs : s.place = .value) (hl : ∀ c ∈ l, c ≠ ' ') :
    ReadsTo s l { s with value := s.value ++ l } := by
  induction l generalizing s with
  | nil => simp [ReadsTo]
  | cons c rest ih =>
    have hnext : next s c = some { s with value := s.value ++ [c] } := by
      rw [next, hs]
      exact if_neg (hl c List.mem_cons_self)
    have hrest := ih (s := { s with value := s.value ++ [c] }) hs fun d hd =>
      hl d (List.mem_cons_of_mem c hd)
    simpa using hrest.cons hnext

/-- A label. -/
theorem readsTo_label {name : String} (hs : s.place = .labelName) (hlabel : s.label = [])
    (htext : s.text = []) (hname : PlainName name) (value : String) :
    ReadsTo s (name ++ "=\"" ++ escapeLabelValue value ++ "\"").toList
      { s with
        place := .closing
        labels := s.labels ++ [(name, stripControlChars value)] } := by
  have hequals : next { s with label := s.label ++ name.toList } '=' =
      some { s with label := s.label ++ name.toList, place := .opening } := by
    rw [next, hs]
    rfl
  have hopen : ReadsTo { s with label := s.label ++ name.toList } "=\"".toList
      { s with label := s.label ++ name.toList, place := .labelValue } :=
    ReadsTo.cons hequals (readsTo_single rfl)
  have hvalue := readsTo_labelValue
    (s := { s with label := s.label ++ name.toList, place := .labelValue }) rfl
    (stripControlChars value).toList
  simp only [String.toList_append, toList_escapeLabelValue]
  refine (((readsTo_labelName hs hname.2).append hopen).append hvalue).append (readsTo_single ?_)
  show some _ = some _
  simp only [hlabel, htext, List.nil_append, String.ofList_toList]

/-- The labels, up to the end of the last one. -/
theorem readsTo_labels {labels : Labels} (hne : labels ≠ []) (hs : s.place = .labelName)
    (hlabel : s.label = []) (htext : s.text = []) (hlabels : ∀ l ∈ labels, PlainName l.1) :
    ReadsTo s
      (joinText ',' (labels.map fun l => l.1 ++ "=\"" ++ escapeLabelValue l.2 ++ "\"")).toList
      { s with
        place := .closing
        labels := s.labels ++ labels.map fun l => (l.1, stripControlChars l.2) } := by
  induction labels generalizing s with
  | nil => exact absurd rfl hne
  | cons e rest ih =>
    have hfirst := readsTo_label hs hlabel htext (hlabels e List.mem_cons_self) e.2
    cases rest with
    | nil => exact hfirst
    | cons e' rest =>
      have hcomma := readsTo_single (s := { s with
        place := .closing, labels := s.labels ++ [(e.1, stripControlChars e.2)] }) (c := ',') rfl
      have hrest := ih (s := { s with
          place := .labelName, labels := s.labels ++ [(e.1, stripControlChars e.2)] })
        (List.cons_ne_nil _ _) rfl hlabel htext fun l hl => hlabels l (List.mem_cons_of_mem e hl)
      have hline := (hfirst.append hcomma).append hrest
      simp only [List.append_assoc] at hline
      simpa [joinText] using hline

/-- A line reads back as its sample. -/
theorem readSample_line {name text : String} {labels : Labels} (hname : PlainName name)
    (hlabels : ∀ l ∈ labels, PlainName l.1) (htext : ∀ c ∈ text.toList, c ≠ ' ') :
    readSample (name ++ MetricsRegistry.formatLabels labels ++ " " ++ text) =
      some ⟨name, labels.map fun l => (l.1, stripControlChars l.2), text⟩ := by
  have hline : ReadsTo start (name ++ MetricsRegistry.formatLabels labels ++ " " ++ text).toList
      { start with
        place := .value
        name := name.toList
        labels := labels.map fun l => (l.1, stripControlChars l.2)
        value := text.toList } := by
    simp only [String.toList_append]
    refine ReadsTo.append ?_ (readsTo_value
      (s := { start with
        place := .value
        name := name.toList
        labels := labels.map fun l => (l.1, stripControlChars l.2) }) rfl htext)
    have hfront : ReadsTo start name.toList { start with name := name.toList } :=
      readsTo_name rfl hname.2
    rw [List.append_assoc]
    refine hfront.append ?_
    by_cases hne : labels = []
    · subst hne
      exact readsTo_single rfl
    · rw [MetricsRegistry.formatLabels, if_neg hne]
      simp only [String.toList_append]
      have hopen : ReadsTo { start with name := name.toList } "\x7b".toList
          { start with name := name.toList, place := .labelName } := readsTo_single rfl
      have hbody := readsTo_labels (s := { start with name := name.toList, place := .labelName })
        hne rfl rfl rfl hlabels
      have hclose := readsTo_single (s := { start with
        name := name.toList
        place := .closing
        labels := labels.map fun l => (l.1, stripControlChars l.2) }) (c := '}') rfl
      exact ((hopen.append hbody).append hclose).append (readsTo_single rfl)
  rw [readSample, hline]
  show some _ = some _
  simp only [String.ofList_toList]

end LineReader

/-- Some lines read back as some samples, and none of them is broken in two. -/
structure Reads (lines : List String) (samples : List Sample) : Prop where
  samples : (lines.filter hasSample).mapM readSample = some samples
  whole : ∀ line ∈ lines, '\n' ∉ line.toList

section Lines

variable {lines lines' : List String} {samples samples' : List Sample} {print : ℚ → String}
  {name : String} {labels : Labels}

theorem reads_nil : Reads [] [] :=
  ⟨rfl, fun _ h => absurd h List.not_mem_nil⟩

theorem Reads.append (h : Reads lines samples) (h' : Reads lines' samples') :
    Reads (lines ++ lines') (samples ++ samples') where
  samples := by
    rw [List.filter_append, List.mapM_append, h.samples, h'.samples]
    rfl
  whole := by
    intro line hline
    rcases List.mem_append.mp hline with hline | hline
    · exact h.whole line hline
    · exact h'.whole line hline

theorem reads_flatMap {α : Type*} (items : List α) {f : α → List String} {g : α → List Sample}
    (h : ∀ a ∈ items, Reads (f a) (g a)) : Reads (items.flatMap f) (items.flatMap g) := by
  induction items with
  | nil => exact reads_nil
  | cons a rest ih =>
    exact (h a List.mem_cons_self).append (ih fun b hb => h b (List.mem_cons_of_mem a hb))

theorem reads_map {α : Type*} (items : List α) {f : α → String} {g : α → Sample}
    (h : ∀ a ∈ items, Reads [f a] [g a]) : Reads (items.map f) (items.map g) := by
  rw [List.map_eq_flatMap, List.map_eq_flatMap]
  exact reads_flatMap items h

theorem not_newline_of_isNameChar {c : Char} (h : isNameChar c = true) : c ≠ '\n' :=
  ne_of_isNameChar h (by decide)

theorem not_newline_of_isControl {c : Char} (h : isControl c = false) : c ≠ '\n' := by
  rintro rfl
  exact absurd h (by decide)

/-- A comment. -/
theorem reads_comment {line : String} (hhead : line.toList.head? = some '#')
    (hwhole : '\n' ∉ line.toList) : Reads [line] [] where
  samples := by
    obtain ⟨rest, hrest⟩ := List.head?_eq_some_iff.mp hhead
    have hcomment : ¬ hasSample line = true := by
      rw [hasSample, hrest]
      show ¬ decide ('#' ≠ '#') = true
      decide
    rw [List.filter_cons_of_neg hcomment]
    rfl
  whole := by
    rintro line' hline
    rw [List.mem_singleton.mp hline]
    exact hwhole

theorem not_newline_mem_formatLabels (hlabels : ∀ l ∈ labels, PlainName l.1) :
    '\n' ∉ (MetricsRegistry.formatLabels labels).toList := by
  have hpart : ∀ l ∈ labels,
      '\n' ∉ (l.1 ++ "=\"" ++ escapeLabelValue l.2 ++ "\"").toList := by
    intro l hl hmem
    simp only [String.toList_append, List.mem_append, or_assoc] at hmem
    rcases hmem with hmem | hmem | hmem | hmem
    · exact not_newline_of_isNameChar ((hlabels l hl).2 _ hmem) rfl
    · exact absurd hmem (by decide)
    · exact not_newline_of_isControl (isControl_of_mem_escape hmem) rfl
    · exact absurd hmem (by decide)
  rw [MetricsRegistry.formatLabels]
  split
  · decide
  · simp only [String.toList_append, List.mem_append, not_or]
    refine ⟨⟨by decide, not_mem_joinText (by decide) fun a ha => ?_⟩, by decide⟩
    obtain ⟨l, hl, rfl⟩ := List.mem_map.mp ha
    exact hpart l hl

/-- A line of a series. -/
theorem reads_line (hprint : PlainNumbers print) (hname : PlainName name)
    (hlabels : ∀ l ∈ labels, PlainName l.1) (value : ℚ) :
    Reads [name ++ MetricsRegistry.formatLabels labels ++ " " ++ print value]
      [sample print name labels value] where
  samples := by
    have hhas : hasSample (name ++ MetricsRegistry.formatLabels labels ++ " " ++ print value) := by
      obtain ⟨c, rest, hcons⟩ := List.exists_cons_of_ne_nil
        (fun h => hname.1 (String.toList_eq_nil_iff.mp h) : name.toList ≠ [])
      have hc : isNameChar c = true := hname.2 c (hcons ▸ List.mem_cons_self)
      rw [hasSample, String.toList_append, String.toList_append, String.toList_append, hcons]
      exact decide_eq_true (ne_of_isNameChar hc (by decide))
    rw [List.filter_cons_of_pos hhas, List.filter_nil, List.mapM_cons,
      LineReader.readSample_line hname hlabels fun c hc => (hprint value c hc).1]
    rfl
  whole := by
    intro line hline hmem
    rw [List.mem_singleton.mp hline] at hmem
    simp only [String.toList_append, List.mem_append, or_assoc] at hmem
    rcases hmem with hmem | hmem | hmem | hmem
    · exact not_newline_of_isNameChar (hname.2 _ hmem) rfl
    · exact not_newline_mem_formatLabels hlabels hmem
    · exact absurd hmem (by decide)
    · exact not_newline_of_isControl (hprint value _ hmem).2 rfl

theorem PlainName.append (h : PlainName name) (part : String)
    (hpart : ∀ c ∈ part.toList, isNameChar c = true) : PlainName (name ++ part) := by
  refine ⟨fun hempty => h.1 (String.append_eq_empty_iff.mp hempty).1, fun c hc => ?_⟩
  rw [String.toList_append, List.mem_append] at hc
  exact hc.elim (h.2 c) (hpart c)

theorem PlainName.not_newline (h : PlainName name) : '\n' ∉ name.toList :=
  fun hmem => not_newline_of_isNameChar (h.2 _ hmem) rfl

/-- The names of the labels of a bucket. -/
theorem plainName_write (hlabels : ∀ l ∈ labels, PlainName l.1) (text : String) :
    ∀ l ∈ write "le" text labels, PlainName l.1 := by
  intro l hl
  rcases (mem_keys_write "le" text labels l.1).mp (List.mem_map_of_mem hl) with hle | hmem
  · rw [hle]
    exact ⟨by decide, List.all_eq_true.mp (by decide)⟩
  · obtain ⟨l', hl', heq⟩ := List.mem_map.mp hmem
    exact heq ▸ hlabels l' hl'

/-- What is written about a metric before its samples. -/
theorem reads_header (hname : PlainName name) (kind : String) (hkind : '\n' ∉ kind.toList) :
    Reads ["# HELP " ++ name ++ " " ++ name, "# TYPE " ++ name ++ " " ++ kind] [] := by
  have hline : ∀ front back : String, front.toList.head? = some '#' → '\n' ∉ front.toList →
      '\n' ∉ back.toList → Reads [front ++ name ++ " " ++ back] [] := by
    intro front back hhead hfront hback
    apply reads_comment
    · obtain ⟨rest, hrest⟩ := List.head?_eq_some_iff.mp hhead
      rw [String.toList_append, String.toList_append, String.toList_append, hrest]
      rfl
    · simp only [String.toList_append, List.mem_append, not_or]
      exact ⟨⟨⟨hfront, hname.not_newline⟩, by decide⟩, hback⟩
  exact (hline "# HELP " name rfl (by decide) hname.not_newline).append
    (hline "# TYPE " kind rfl (by decide) hkind)

theorem reads_valueLines (hprint : PlainNumbers print) {kind : String}
    (hkind : '\n' ∉ kind.toList) {e : SeriesKey × ℚ} (hkey : e.1.Plain) :
    Reads (MetricsRegistry.valueLines print kind e) [sample print e.1.name e.1.labels e.2] :=
  (reads_header hkey.1 kind hkind).append (reads_line hprint hkey.1 hkey.2 e.2)

theorem pairwise_bucketsOf (values : List ℚ) :
    (bucketsOf values).Pairwise fun a b => decide (a.le ≤ b.le) = true := by
  rw [bucketsOf, List.pairwise_map]
  simp only [HISTOGRAM_BUCKETS, List.pairwise_cons, List.mem_cons, List.not_mem_nil, or_false,
    decide_eq_true_eq, forall_eq_or_imp, forall_eq, false_implies, implies_true, List.Pairwise.nil]
  norm_num

theorem reads_histogramLines (hprint : PlainNumbers print) {key : SeriesKey} (hkey : key.Plain)
    (values : List ℚ) :
    Reads (MetricsRegistry.histogramLines print (key, bucketsOf values))
      (histogramSamples print key values) := by
  have hlast : (bucketsOf values).getLast?.getD ⟨0, 0, 0⟩ =
      ⟨10, values.countP (· ≤ 10), values.sum⟩ := rfl
  have hbucket : ∀ text : String, ∀ value : ℚ, Reads
      [key.name ++ "_bucket" ++ MetricsRegistry.formatLabels (write "le" text key.labels) ++ " " ++
        print value]
      [sample print (key.name ++ "_bucket") (write "le" text key.labels) value] := fun text value =>
    reads_line hprint (hkey.1.append "_bucket" (List.all_eq_true.mp (by decide))) (plainName_write hkey.2 text) value
  have hbuckets := reads_map HISTOGRAM_BUCKETS
    fun le _ => hbucket (print le) (values.countP (· ≤ le) : ℕ)
  have hsum := reads_line hprint (hkey.1.append "_sum" (List.all_eq_true.mp (by decide))) hkey.2 values.sum
  have hcount := reads_line hprint (hkey.1.append "_count" (List.all_eq_true.mp (by decide))) hkey.2
    (values.countP (· ≤ 10) : ℕ)
  rw [MetricsRegistry.histogramLines, List.mergeSort_of_pairwise (pairwise_bucketsOf values),
    hlast, histogramSamples, bucketsOf, List.map_map]
  have htotals := (hbucket "+Inf" (values.countP (· ≤ 10) : ℕ)).append (hsum.append hcount)
  exact ((reads_header hkey.1 "histogram" (by decide)).append hbuckets).append htotals

end Lines

section Snapshot

variable {print : ℚ → String} {calls : List MetricsCall}

/-- The text reads back as what its lines do. -/
theorem readExposition_joinText {lines : List String} {samples : List Sample}
    (h : Reads lines samples) : readExposition (joinText '\n' lines) = some samples := by
  by_cases hne : lines = []
  · subst hne
    exact h.samples
  · rw [readExposition, splitText_joinText hne h.whole]
    exact h.samples

theorem plain_of_mem_seriesOf (shows : MetricsCall → Option (SeriesKey × ℚ))
    (hshows : ∀ c e, shows c = some e → c.key = e.1) (hplain : ∀ c ∈ calls, c.key.Plain) :
    ∀ key ∈ seriesOf shows calls, key.Plain := by
  intro key hkey
  rw [seriesOf, mem_distinct] at hkey
  obtain ⟨e, he, rfl⟩ := List.mem_map.mp hkey
  obtain ⟨c, hc, hce⟩ := List.mem_filterMap.mp he
  exact hshows c e hce ▸ hplain c hc

/-- **Exposition**: the text of the registry reads back as what the operations on it amount to,
    each series with its own values, whatever texts are the values of the labels. -/
theorem readExposition_snapshot (hprint : PlainNumbers print)
    (hplain : ∀ c ∈ calls, c.key.Plain) :
    readExposition ((MetricsRegistry.recorded calls).snapshot print) =
      some (samplesOf print calls) := by
  have hcounted := plain_of_mem_seriesOf MetricsCall.counted
    (by intro c e h; cases c <;> cases h; rfl) hplain
  have hgauged := plain_of_mem_seriesOf MetricsCall.gauged
    (by intro c e h; cases c <;> cases h; rfl) hplain
  have hobserved := plain_of_mem_seriesOf MetricsCall.observed
    (by intro c e h; cases c <;> cases h; rfl) hplain
  apply readExposition_joinText
  rw [MetricsRegistry.snapshotLines, recorded_counters, recorded_gauges, recorded_histograms,
    List.flatMap_map, List.flatMap_map, List.flatMap_map]
  refine ((?_ : Reads _ _).append ?_).append ?_
  · rw [List.map_eq_flatMap]
    exact reads_flatMap _ fun key hkey => reads_valueLines hprint (by decide) (hcounted key hkey)
  · rw [List.map_eq_flatMap]
    exact reads_flatMap _ fun key hkey => reads_valueLines hprint (by decide) (hgauged key hkey)
  · exact reads_flatMap _ fun key hkey => reads_histogramLines hprint (hobserved key hkey) _

/-- Integers below three, as they are printed. -/
def printSmall (q : ℚ) : String :=
  if q = 2 then "2" else if q = 1 then "1" else "0"

theorem plainNumbers_printSmall : PlainNumbers printSmall := by
  intro q
  rw [printSmall]
  split
  · exact List.forall_mem_singleton.mpr (by decide)
  · split <;> exact List.forall_mem_singleton.mpr (by decide)

/-- A route that looks like the end of one line and another. -/
def forgingCalls : List MetricsCall :=
  [.incrementCounter "http_requests_total" [("route", "/a\"\x7d 9\nforged 9\\")] 1,
    .incrementCounter "http_requests_total" [("route", "/a\"\x7d 9\nforged 9\\")] 1,
    .setGauge "bothive_bots_total" 1 []]

theorem plain_forgingCalls : ∀ c ∈ forgingCalls, c.key.Plain := by
  have hplain : ∀ name : String, name ≠ "" → name.toList.all isNameChar = true → PlainName name :=
    fun _ hne hall => ⟨hne, List.all_eq_true.mp hall⟩
  have hroute : ∀ l ∈ [("route", "/a\"\x7d 9\nforged 9\\")], PlainName (Prod.fst l) :=
    List.forall_mem_singleton.mpr (hplain "route" (by decide) (by decide))
  have hrequests := hplain "http_requests_total" (by decide) (by decide)
  have hbots := hplain "bothive_bots_total" (by decide) (by decide)
  simp only [forgingCalls, List.forall_mem_cons, List.not_mem_nil, false_implies, implies_true,
    and_true]
  exact ⟨⟨hrequests, hroute⟩, ⟨hrequests, hroute⟩, hbots, fun _ h => absurd h List.not_mem_nil⟩

theorem readExposition_snapshot_forging :
    readExposition ((MetricsRegistry.recorded forgingCalls).snapshot printSmall) =
      some [⟨"http_requests_total", [("route", "/a\"\x7d 9 forged 9\\")], "2"⟩,
        ⟨"bothive_bots_total", [], "1"⟩] := by
  rw [readExposition_snapshot plainNumbers_printSmall plain_forgingCalls]
  decide +kernel

end Snapshot

end BotHive.Metrics
