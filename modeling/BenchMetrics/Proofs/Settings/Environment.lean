import BenchMetrics.Proofs.Settings.Selection
import Mathlib.Logic.Function.Basic

/-! Settings from the environment, by tables of words. Each variable is read for itself; only when
none of the three that take a word is bad does it matter whether a selection names anything, and the
settings that come out pass their own check. -/
namespace BenchMetrics

/-- Words, and what they stand for. -/
abbrev Words (α : Type) := List (String × α)

def streamingWords : Words Bool :=
  [("1", true), ("true", true), ("yes", true), ("on", true),
    ("0", false), ("false", false), ("no", false), ("off", false)]

def policyWords : Words RejectionPolicy := [("skip", .skip), ("abort", .abort)]

def unitWords : Words TimeUnit :=
  [("ns", .nanoseconds), ("nanoseconds", .nanoseconds),
    ("us", .microseconds), ("\u00b5s", .microseconds), ("microseconds", .microseconds),
    ("ms", .milliseconds), ("milliseconds", .milliseconds),
    ("s", .seconds), ("sec", .seconds), ("seconds", .seconds)]

namespace Words
variable {α : Type} {words : Words α} {bad : String → SettingsError}
  {parse : String → Except SettingsError α}

/-- A variable is set to nothing but a word of the table. -/
def Accept (words : Words α) (value : Option String) : Prop :=
  ∀ raw, value = some raw → plainWord raw ∈ words.map Prod.fst

/-- What a variable stands for. -/
inductive Chosen (words : Words α) (default : α) : Option String → α → Prop
  | unset : Chosen words default none default
  | word {raw : String} {v : α} (h : (plainWord raw, v) ∈ words) :
    Chosen words default (some raw) v

/-- A text is read by the table: as what its word stands for, or not at all. -/
structure Reads (words : Words α) (bad : String → SettingsError)
    (parse : String → Except SettingsError α) : Prop where
  accepts : ∀ raw v, (plainWord raw, v) ∈ words → parse raw = .ok v
  refuses : ∀ raw, plainWord raw ∉ words.map Prod.fst → parse raw = .error (bad raw)

theorem accept_iff {default : α} {value : Option String} :
    words.Accept value ↔ ∃ v, words.Chosen default value v := by
  constructor
  · intro h
    cases value with
    | none => exact ⟨default, .unset⟩
    | some raw =>
      obtain ⟨⟨word, v⟩, hmem, hword⟩ := List.mem_map.mp (h raw rfl)
      exact ⟨v, .word (hword ▸ hmem)⟩
  · rintro ⟨v, hchosen⟩ raw rfl
    cases hchosen with
    | word h => exact List.mem_map.mpr ⟨_, h, rfl⟩

theorem not_accept_iff {value : Option String} : ¬ words.Accept value ↔
    ∃ raw, value = some raw ∧ plainWord raw ∉ words.map Prod.fst := by
  simp only [Accept, not_forall, exists_prop]

section
variable {env : String → Option String} {setting : Setting} {default v : α} {raw : String}

theorem Reads.eq_ok (h : Reads words bad parse)
    (hv : words.Chosen default (env setting.envName) v) :
    readVariable env setting parse default = .ok v := by
  rw [readVariable]
  generalize env setting.envName = value at hv
  cases hv with
  | unset => rfl
  | word hword => exact h.accepts _ v hword

theorem Reads.eq_error (h : Reads words bad parse) (hraw : env setting.envName = some raw)
    (hbad : plainWord raw ∉ words.map Prod.fst) :
    readVariable env setting parse default = .error (bad raw) := by
  rw [readVariable, hraw]
  exact h.refuses raw hbad

end

theorem reads_streaming :
    Reads streamingWords (fun raw => .badValue .streaming (plainWord raw)) parseStreaming where
  accepts raw v h := by
    simp only [streamingWords, List.mem_cons, Prod.mk.injEq, List.not_mem_nil, or_false] at h
    rcases h with ⟨h, rfl⟩ | ⟨h, rfl⟩ | ⟨h, rfl⟩ | ⟨h, rfl⟩ | ⟨h, rfl⟩ | ⟨h, rfl⟩ | ⟨h, rfl⟩ |
      ⟨h, rfl⟩ <;> simp [parseStreaming, h]
  refuses raw h := by
    simp only [streamingWords, List.map_cons, List.map_nil, List.mem_cons, List.not_mem_nil,
      or_false, not_or] at h
    simp [parseStreaming, h]

theorem reads_policy :
    Reads policyWords (fun raw => .badValue .policy (plainWord raw)) parsePolicy where
  accepts raw v h := by
    simp only [policyWords, List.mem_cons, Prod.mk.injEq, List.not_mem_nil, or_false] at h
    rcases h with ⟨h, rfl⟩ | ⟨h, rfl⟩ <;> simp [parsePolicy, h, RejectionPolicy.ofText?]
  refuses raw h := by
    simp only [policyWords, List.map_cons, List.map_nil, List.mem_cons, List.not_mem_nil,
      or_false, not_or] at h
    simp [parsePolicy, h, RejectionPolicy.ofText?]

theorem reads_displayUnit : Reads unitWords (.badValue .displayUnit) parseDisplayUnit where
  accepts raw v h := by
    simp only [unitWords, plainWord, List.mem_cons, Prod.mk.injEq, List.not_mem_nil, or_false] at h
    rcases h with ⟨h, rfl⟩ | ⟨h, rfl⟩ | ⟨h, rfl⟩ | ⟨h, rfl⟩ | ⟨h, rfl⟩ | ⟨h, rfl⟩ | ⟨h, rfl⟩ |
      ⟨h, rfl⟩ | ⟨h, rfl⟩ | ⟨h, rfl⟩ <;> simp [parseDisplayUnit, TimeUnit.parse, h]
  refuses raw h := by
    simp only [unitWords, plainWord, List.map_cons, List.map_nil, List.mem_cons, List.not_mem_nil,
      or_false, not_or] at h
    simp [parseDisplayUnit, TimeUnit.parse, h]

end Words

/-- The selection that a variable stands for: the pieces that are not blank, trimmed, in order; none,
as by default, if it is not set. -/
def selectionOf (value : Option String) : Option (List String) :=
  value.map fun raw => (namedPieces raw).map fun piece => String.ofList (Text.trim piece)

theorem selectionOf_eq (value : Option String) : selectionOf value = value.map parseSelection := by
  cases value with
  | none => rfl
  | some raw => exact congrArg some (parseSelection_eq raw).symm

theorem selectionOf_eq_nil_iff {value : Option String} : selectionOf value = some [] ↔
    ∃ raw, value = some raw ∧ ∀ piece ∈ raw.toList.splitOn ',', Text.allBlank piece := by
  simp only [selectionOf_eq, Option.map_eq_some_iff, parseSelection_eq_nil_iff]

/-- Every variable can be read. -/
structure Acceptable (env : String → Option String) : Prop where
  streaming : streamingWords.Accept (env Setting.streaming.envName)
  policy : policyWords.Accept (env Setting.policy.envName)
  displayUnit : unitWords.Accept (env Setting.displayUnit.envName)
  selection : ∀ raw, env Setting.selection.envName = some raw →
    ∃ piece ∈ raw.toList.splitOn ',', ¬ Text.allBlank piece

/-- The error of the first variable that cannot be read; the selection comes last. -/
inductive FirstBad (env : String → Option String) : SettingsError → Prop
  | streaming {raw : String} (hraw : env Setting.streaming.envName = some raw)
    (hbad : plainWord raw ∉ streamingWords.map Prod.fst) :
    FirstBad env (.badValue .streaming (plainWord raw))
  | policy {raw : String} (hstreaming : streamingWords.Accept (env Setting.streaming.envName))
    (hraw : env Setting.policy.envName = some raw)
    (hbad : plainWord raw ∉ policyWords.map Prod.fst) :
    FirstBad env (.badValue .policy (plainWord raw))
  | displayUnit {raw : String} (hstreaming : streamingWords.Accept (env Setting.streaming.envName))
    (hpolicy : policyWords.Accept (env Setting.policy.envName))
    (hraw : env Setting.displayUnit.envName = some raw)
    (hbad : plainWord raw ∉ unitWords.map Prod.fst) :
    FirstBad env (.badValue .displayUnit raw)
  | selection {raw : String} (hstreaming : streamingWords.Accept (env Setting.streaming.envName))
    (hpolicy : policyWords.Accept (env Setting.policy.envName))
    (hunit : unitWords.Accept (env Setting.displayUnit.envName))
    (hraw : env Setting.selection.envName = some raw)
    (hblank : ∀ piece ∈ raw.toList.splitOn ',', Text.allBlank piece) :
    FirstBad env .emptySelection

namespace Settings

/-- Each setting is what its variable stands for, or its default if the variable is not set. -/
structure Loaded (env : String → Option String) (s : Settings) : Prop where
  streaming : streamingWords.Chosen default.streaming (env Setting.streaming.envName) s.streaming
  policy : policyWords.Chosen default.policy (env Setting.policy.envName) s.policy
  displayUnit :
    unitWords.Chosen default.displayUnit (env Setting.displayUnit.envName) s.displayUnit
  selection : s.selection = selectionOf (env Setting.selection.envName)
  named : s.selection ≠ some []

variable {env : String → Option String} {s : Settings} {e : SettingsError}

theorem readVariable_selection : readVariable env .selection
      (fun raw => .ok (some (parseSelection raw))) default.selection =
    .ok (selectionOf (env Setting.selection.envName)) := by
  rw [selectionOf_eq, readVariable]
  cases env Setting.selection.envName <;> rfl

theorem tidyName_of_selectionOf {value : Option String} {names : List String}
    (h : selectionOf value = some names) : ∀ name ∈ names, TidyName name := by
  rw [selectionOf_eq, Option.map_eq_some_iff] at h
  obtain ⟨raw, _, rfl⟩ := h
  exact fun name hname => tidyName_of_mem hname

/-- A selection of tidy names is refused only if it is empty. -/
theorem validate_of_tidy (h : ∀ names, s.selection = some names → ∀ name ∈ names, TidyName name) :
    s.validate = if s.selection = some [] then .error .emptySelection else .ok () := by
  rw [validate]
  cases hselection : s.selection with
  | none => rfl
  | some names =>
    cases names with
    | nil => rfl
    | cons name names =>
      have hvisible : (name :: names).find? Text.blank = none := by
        rw [List.find?_eq_none]
        intro other hother
        exact (h _ hselection other hother).visible
      simp [hvisible]

theorem Loaded.validate_eq (h : Loaded env s) : s.validate = .ok () := by
  have htidy : ∀ names, s.selection = some names → ∀ name ∈ names, TidyName name :=
    fun names hnames => tidyName_of_selectionOf (h.selection ▸ hnames)
  rw [validate_of_tidy htidy, if_neg h.named]

section
variable {streaming : Bool} {policy : RejectionPolicy} {unit : TimeUnit}

/-- With every word read, the settings are made and then checked. -/
theorem ofEnvironment_of_chosen
    (hstreaming : streamingWords.Chosen default.streaming (env Setting.streaming.envName) streaming)
    (hpolicy : policyWords.Chosen default.policy (env Setting.policy.envName) policy)
    (hunit : unitWords.Chosen default.displayUnit (env Setting.displayUnit.envName) unit) :
    ofEnvironment env =
      (validate ⟨streaming, policy, selectionOf (env Setting.selection.envName), unit⟩ >>= fun _ =>
        .ok ⟨streaming, policy, selectionOf (env Setting.selection.envName), unit⟩) := by
  rw [ofEnvironment, Words.reads_streaming.eq_ok hstreaming, Words.reads_policy.eq_ok hpolicy,
    readVariable_selection, Words.reads_displayUnit.eq_ok hunit]
  rfl

end

theorem ofEnvironment_of_loaded (h : Loaded env s) : ofEnvironment env = .ok s := by
  have hmade : (⟨s.streaming, s.policy, selectionOf (env Setting.selection.envName),
      s.displayUnit⟩ : Settings) = s := by
    rw [← h.selection]
  rw [ofEnvironment_of_chosen h.streaming h.policy h.displayUnit, hmade, h.validate_eq]
  rfl

theorem ofEnvironment_of_firstBad (h : FirstBad env e) : ofEnvironment env = .error e := by
  cases h with
  | streaming hraw hbad =>
    rw [ofEnvironment, Words.reads_streaming.eq_error hraw hbad]
    rfl
  | policy hstreaming hraw hbad =>
    obtain ⟨_, hstreaming⟩ := Words.accept_iff.mp hstreaming
    rw [ofEnvironment, Words.reads_streaming.eq_ok hstreaming,
      Words.reads_policy.eq_error hraw hbad]
    rfl
  | displayUnit hstreaming hpolicy hraw hbad =>
    obtain ⟨_, hstreaming⟩ := Words.accept_iff.mp hstreaming
    obtain ⟨_, hpolicy⟩ := Words.accept_iff.mp hpolicy
    rw [ofEnvironment, Words.reads_streaming.eq_ok hstreaming, Words.reads_policy.eq_ok hpolicy,
      readVariable_selection, Words.reads_displayUnit.eq_error hraw hbad]
    rfl
  | @selection raw hstreaming hpolicy hunit hraw hblank =>
    obtain ⟨_, hstreaming⟩ := Words.accept_iff.mp hstreaming
    obtain ⟨_, hpolicy⟩ := Words.accept_iff.mp hpolicy
    obtain ⟨_, hunit⟩ := Words.accept_iff.mp hunit
    rw [ofEnvironment_of_chosen hstreaming hpolicy hunit,
      selectionOf_eq_nil_iff.mpr ⟨raw, hraw, hblank⟩]
    rfl

theorem acceptable_iff : Acceptable env ↔ ∃ s, Loaded env s := by
  constructor
  · intro h
    obtain ⟨streaming, hstreaming⟩ := Words.accept_iff.mp h.streaming
    obtain ⟨policy, hpolicy⟩ := Words.accept_iff.mp h.policy
    obtain ⟨unit, hunit⟩ := Words.accept_iff.mp h.displayUnit
    refine ⟨⟨streaming, policy, _, unit⟩, hstreaming, hpolicy, hunit, rfl, fun hnone => ?_⟩
    obtain ⟨raw, hraw, hblank⟩ := selectionOf_eq_nil_iff.mp hnone
    obtain ⟨piece, hpiece, hvisible⟩ := h.selection raw hraw
    exact hvisible (hblank piece hpiece)
  · rintro ⟨s, h⟩
    refine ⟨Words.accept_iff.mpr ⟨_, h.streaming⟩, Words.accept_iff.mpr ⟨_, h.policy⟩,
      Words.accept_iff.mpr ⟨_, h.displayUnit⟩, fun raw hraw => ?_⟩
    by_contra hnone
    have hblank : ∀ piece ∈ raw.toList.splitOn ',', Text.allBlank piece := by
      simpa only [not_exists, not_and, not_not] using hnone
    exact h.named (h.selection.trans (selectionOf_eq_nil_iff.mpr ⟨raw, hraw, hblank⟩))

/-- Either a variable is the first that cannot be read, or all of them can. -/
theorem firstBad_or_acceptable (env : String → Option String) :
    (∃ e, FirstBad env e) ∨ Acceptable env := by
  by_cases hstreaming : streamingWords.Accept (env Setting.streaming.envName)
  case neg =>
    obtain ⟨raw, hraw, hbad⟩ := Words.not_accept_iff.mp hstreaming
    exact .inl ⟨_, .streaming hraw hbad⟩
  by_cases hpolicy : policyWords.Accept (env Setting.policy.envName)
  case neg =>
    obtain ⟨raw, hraw, hbad⟩ := Words.not_accept_iff.mp hpolicy
    exact .inl ⟨_, .policy hstreaming hraw hbad⟩
  by_cases hunit : unitWords.Accept (env Setting.displayUnit.envName)
  case neg =>
    obtain ⟨raw, hraw, hbad⟩ := Words.not_accept_iff.mp hunit
    exact .inl ⟨_, .displayUnit hstreaming hpolicy hraw hbad⟩
  by_cases hnone : selectionOf (env Setting.selection.envName) = some []
  case pos =>
    obtain ⟨raw, hraw, hblank⟩ := selectionOf_eq_nil_iff.mp hnone
    exact .inl ⟨_, .selection hstreaming hpolicy hunit hraw hblank⟩
  obtain ⟨_, hstreaming⟩ := Words.accept_iff.mp hstreaming
  obtain ⟨_, hpolicy⟩ := Words.accept_iff.mp hpolicy
  obtain ⟨_, hunit⟩ := Words.accept_iff.mp hunit
  exact .inr (acceptable_iff.mpr ⟨⟨_, _, _, _⟩, hstreaming, hpolicy, hunit, rfl, hnone⟩)

theorem ofEnvironment_eq_error_iff : ofEnvironment env = .error e ↔ FirstBad env e := by
  refine ⟨fun h => ?_, ofEnvironment_of_firstBad⟩
  rcases firstBad_or_acceptable env with ⟨found, hfound⟩ | hacceptable
  · cases h.symm.trans (ofEnvironment_of_firstBad hfound)
    exact hfound
  · obtain ⟨s, hs⟩ := acceptable_iff.mp hacceptable
    cases h.symm.trans (ofEnvironment_of_loaded hs)

theorem ofEnvironment_eq_ok_iff : ofEnvironment env = .ok s ↔ Loaded env s := by
  refine ⟨fun h => ?_, ofEnvironment_of_loaded⟩
  rcases firstBad_or_acceptable env with ⟨found, hfound⟩ | hacceptable
  · cases h.symm.trans (ofEnvironment_of_firstBad hfound)
  · obtain ⟨found, hfound⟩ := acceptable_iff.mp hacceptable
    cases h.symm.trans (ofEnvironment_of_loaded hfound)
    exact hfound

/-- The environment with another text for the selection. -/
def selecting (env : String → Option String) (raw : String) : String → Option String :=
  Function.update env Setting.selection.envName (some raw)

/-- A selection that was read is read again from its names joined with commas. -/
theorem Loaded.rejoined (h : Loaded env s) {names : List String} (hnames : s.selection = some names) :
    Loaded (selecting env (",".intercalate names)) s where
  streaming := by
    rw [selecting, Function.update_of_ne (by decide)]
    exact h.streaming
  policy := by
    rw [selecting, Function.update_of_ne (by decide)]
    exact h.policy
  displayUnit := by
    rw [selecting, Function.update_of_ne (by decide)]
    exact h.displayUnit
  selection := by
    have htidy := tidyName_of_selectionOf (h.selection ▸ hnames)
    rw [selecting, Function.update_self, selectionOf_eq, Option.map_some, parseSelection_joined htidy,
      hnames]
  named := h.named

/-- What the environment makes of the settings. They are loaded exactly if every variable can be
read, and otherwise the error is that of the first bad one. What is loaded passes its own check, its
selection holds tidy names, and these joined with commas are the same selection again; so a blank
name is never the error. -/
theorem ofEnvironment_settled (env : String → Option String) :
    ((∃ s, ofEnvironment env = .ok s) ↔ Acceptable env) ∧
    (∀ e, ofEnvironment env = .error e ↔ FirstBad env e) ∧
    (∀ s, ofEnvironment env = .ok s ↔ Loaded env s) ∧
    (∀ s, ofEnvironment env = .ok s → s.validate = .ok () ∧
      ∀ names, s.selection = some names → (∀ name ∈ names, TidyName name) ∧
        parseSelection (",".intercalate names) = names ∧
        ofEnvironment (selecting env (",".intercalate names)) = .ok s) ∧
    ∀ name, ofEnvironment env ≠ .error (.badValue .selection name) := by
  refine ⟨?_, fun e => ofEnvironment_eq_error_iff, fun s => ofEnvironment_eq_ok_iff,
    fun s hs => ?_, fun name h => ?_⟩
  · simp only [ofEnvironment_eq_ok_iff, acceptable_iff]
  · have hloaded := ofEnvironment_eq_ok_iff.mp hs
    refine ⟨hloaded.validate_eq, fun names hnames => ?_⟩
    have htidy := tidyName_of_selectionOf (hloaded.selection ▸ hnames)
    exact ⟨htidy, parseSelection_joined htidy,
      ofEnvironment_eq_ok_iff.mpr (hloaded.rejoined hnames)⟩
  · cases ofEnvironment_eq_error_iff.mp h

/-- A word in capitals, a micro sign, and a selection with blank pieces and a name given twice. -/
def mixedEnvironment : String → Option String :=
  selecting (fun name => if name = "PERF_LENS_STREAMING" then some " Off\t"
    else if name = "PERF_LENS_DISPLAY_UNIT" then some "\u00b5S" else none) " ttft,\u00a0,itl ,ttft,"

theorem ofEnvironment_settled_mixed :
    ofEnvironment mixedEnvironment =
      .ok ⟨false, .skip, some ["ttft", "itl", "ttft"], .microseconds⟩ ∧
    parseSelection "ttft,itl,ttft" = ["ttft", "itl", "ttft"] ∧
    ofEnvironment (selecting mixedEnvironment "ttft,itl,ttft") =
      .ok ⟨false, .skip, some ["ttft", "itl", "ttft"], .microseconds⟩ := by
  obtain ⟨_, _, hok, hread, _⟩ := ofEnvironment_settled mixedEnvironment
  have hstreaming : streamingWords.Chosen default.streaming (some " Off\t") false :=
    .word (by decide)
  have hunit : unitWords.Chosen default.displayUnit (some "\u00b5S") .microseconds :=
    .word (by decide)
  have hloaded : Loaded mixedEnvironment
      ⟨false, .skip, some ["ttft", "itl", "ttft"], .microseconds⟩ :=
    ⟨hstreaming, .unset, hunit, by decide, by decide⟩
  have hs := (hok _).mpr hloaded
  obtain ⟨_, hjoined, hagain⟩ := (hread _ hs).2 _ rfl
  exact ⟨hs, hjoined, hagain⟩

end Settings
end BenchMetrics
