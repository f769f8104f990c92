import LineCalc.Settings.File
import LineCalc.Proofs.Except
import Mathlib.Data.List.Basic
/-!
# Layers of settings

Settings are changed by layers, one after the other.  Each setting ends with what the last layer
said about it, and the first layer that asks for something there is not is the one that is refused.

* `Settings.IsValid` : the settings that runs can have, and `Settings.isValid_of_apply`,
  `Settings.isValid_of_ofFile` : how they come about;
* `Layer.IsFaulty` : a layer that is refused, whatever the settings before it are;
* `Settings.resolved` : each setting as it was said last;
* `Settings.applyAll_eq` : layers give the resolved settings, or the fault of the first faulty one;
* `Settings.layers_resolve` : the same, setting by setting.
-/
namespace LineCalc

/-! ## What one layer says -/

namespace Layer

/-- The input that a layer sets; an empty one says nothing. -/
def input? (l : Layer) : Option Bytes := l.input.filter (!·.isEmpty)

/-- The format of the listing that a layer sets; an empty one stands for `text`. -/
def dump? (l : Layer) : Option Bytes := l.dump.map (Settings.orDefault "text")

/-- The rule for colour that a layer sets; an empty one stands for `auto`. -/
def color? (l : Layer) : Option Bytes := l.color.map (Settings.orDefault "auto")

/-- The layer asks for a format of the listing or a rule for colour that there is not. -/
def IsFaulty (l : Layer) : Prop :=
  (∃ d, l.dump = some d ∧ d ≠ [] ∧ d ∉ Settings.dumps) ∨
    ∃ d, l.color = some d ∧ d ≠ [] ∧ d ∉ Settings.colors

/-- A text that is neither empty nor one of the choices. -/
def unlisted (choices : List Bytes) (s : Bytes) : Bool := !s.isEmpty && !choices.contains s

/-- The fault of a layer from `source`, if it is faulty: that of the listing before that of the
colour. -/
def fault? (l : Layer) (source : Bytes) : Option SettingsError :=
  ((l.dump.filter (unlisted Settings.dumps)).map (.dump source)).or
    ((l.color.filter (unlisted Settings.colors)).map (.color source))

/-- A layer on top of another one: it says what the upper one says, and what the lower one says
where the upper one says nothing. -/
def atop (l l' : Layer) : Layer where
  input := l.input?.or l'.input
  lenient := l.lenient.or l'.lenient
  dump := l.dump.or l'.dump
  color := l.color.or l'.color
  exportDb := l.exportDb.or l'.exportDb

/-- What the layers said about a setting last. -/
def last? (said : Layer → Option α) (ls : List Layer) : Option α := (ls.filterMap said).getLast?

/-- What the first layer said counts only if no other one says anything. -/
theorem getD_last?_cons (said : Layer → Option α) (l : Layer) (ls : List Layer) (a : α) :
    (last? said (l :: ls)).getD a = (last? said ls).getD ((said l).getD a) := by
  unfold last?
  cases h : said l with
  | none => rw [List.filterMap_cons_none h, Option.getD_none]
  | some b =>
      rw [List.filterMap_cons_some h, List.getLast?_cons, Option.getD_some, Option.getD_some]

/-- A layer is faulty just if it has a fault. -/
theorem isFaulty_iff {l : Layer} (source : Bytes) : l.IsFaulty ↔ (l.fault? source).isSome := by
  have hunlisted : ∀ (o : Option Bytes) (choices : List Bytes),
      (∃ d, o = some d ∧ d ≠ [] ∧ d ∉ choices) ↔ (o.filter (unlisted choices)).isSome := by
    intro o choices
    cases o with
    | none => simp
    | some d => simp [unlisted]
  simp only [IsFaulty, hunlisted, fault?, Option.isSome_or, Option.isSome_map, Bool.or_eq_true]

/-- A layer without a fault is not faulty. -/
theorem fault?_eq_none_iff {l : Layer} (source : Bytes) :
    l.fault? source = none ↔ ¬ l.IsFaulty := by
  rw [isFaulty_iff source, Option.not_isSome_iff_eq_none]

end Layer

namespace Settings

/-! ## Valid settings -/

/-- Settings that a run can have: there is a program to run, and the listing and the colour are
among the choices. -/
structure IsValid (s : Settings) : Prop where
  input : s.input ≠ []
  dump : s.dump ∈ dumps
  color : s.color ∈ colors

variable {s s' c : Settings} {l : Layer} {source : Bytes}

/-- No default is empty. -/
theorem orDefault_ne_nil {default : Bytes} (h : default ≠ []) (a : Bytes) :
    orDefault default a ≠ [] := by
  unfold orDefault
  split
  · exact h
  · next ha => exact mt List.isEmpty_iff.2 ha

/-- A text that is there needs no default. -/
theorem orDefault_of_ne_nil {a : Bytes} (h : a ≠ []) (default : Bytes) : orDefault default a = a :=
  if_neg (mt List.isEmpty_iff.1 h)

/-- No format of the listing is empty. -/
theorem ne_nil_of_mem_dumps {d : Bytes} (h : d ∈ dumps) : d ≠ [] := by
  rintro rfl
  revert h
  decide

/-- No rule for colour is empty. -/
theorem ne_nil_of_mem_colors {d : Bytes} (h : d ∈ colors) : d ≠ [] := by
  rintro rfl
  revert h
  decide

/-- Nothing is wrong with settings just if the listing and the colour are among the choices. -/
theorem fault?_eq_none_iff : s.fault? source = none ↔ s.dump ∈ dumps ∧ s.color ∈ colors := by
  unfold fault?
  split
  · next h => simp_all
  · split
    · next h => simp_all
    · next h => simp_all

/-- Settings with defaults are valid if nothing is wrong with them. -/
theorem isValid_withDefaults (h : (withDefaults s).fault? source = none) :
    (withDefaults s).IsValid := by
  obtain ⟨hdump, hcolor⟩ := fault?_eq_none_iff.1 h
  exact ⟨orDefault_ne_nil (by decide) s.input, hdump, hcolor⟩

/-- The settings that nothing was said about are valid. -/
theorem isValid_default : default.IsValid :=
  isValid_withDefaults (show (default : Settings).fault? [] = none by decide)

/-- So are the settings of a file. -/
theorem isValid_of_ofFile {data path : Bytes} (h : ofFile data path = .ok c) : c.IsValid := by
  unfold ofFile at h
  split at h
  · cases h
  · extract_lets s at h
    split at h
    · cases h
    · next hfault =>
        rw [← Except.ok.inj h]
        exact isValid_withDefaults hfault

/-- **So are settings after a layer**, whatever they were before. -/
theorem isValid_of_apply (h : s.apply l source = .ok s') : s'.IsValid := by
  unfold apply at h
  split at h
  · cases h
  · next hfault =>
      cases h
      exact isValid_withDefaults hfault

/-! ## One layer -/

/-- The settings after some layers: each as it was said last, or as before. -/
def resolved (s : Settings) (ls : List Layer) : Settings where
  input := (Layer.last? Layer.input? ls).getD s.input
  lenient := (Layer.last? Layer.lenient ls).getD s.lenient
  dump := (Layer.last? Layer.dump? ls).getD s.dump
  color := (Layer.last? Layer.color? ls).getD s.color
  exportDb := (Layer.last? Layer.exportDb ls).getD s.exportDb

/-- The settings after one layer. -/
theorem resolved_singleton (s : Settings) (l : Layer) : s.resolved [l] =
    ⟨l.input?.getD s.input, l.lenient.getD s.lenient, l.dump?.getD s.dump, l.color?.getD s.color,
      l.exportDb.getD s.exportDb⟩ := by
  simp only [resolved, Layer.getD_last?_cons]
  rfl

/-- The first layer can be applied by itself. -/
theorem resolved_cons (s : Settings) (l : Layer) (ls : List Layer) :
    s.resolved (l :: ls) = (s.resolved [l]).resolved ls := by
  simp only [resolved_singleton]
  simp only [resolved, Layer.getD_last?_cons]

/-- A default stands for an empty text, and a setting that is no empty text needs none. -/
theorem orDefault_getD {default a : Bytes} (ha : a ≠ []) (said : Option Bytes) :
    orDefault default (said.getD a) = (said.map (orDefault default)).getD a := by
  cases said with
  | none => exact orDefault_of_ne_nil ha default
  | some d => rfl

/-- **A layer says the last word** on what it sets, and nothing else changes. -/
theorem merge_eq_resolved (hs : s.IsValid) (l : Layer) : s.merge l = s.resolved [l] := by
  have hinput : (s.merge l).input = l.input?.getD s.input := by
    obtain ⟨input, _, _, _, _⟩ := l
    cases input with
    | none => exact orDefault_of_ne_nil hs.input _
    | some i =>
        by_cases hi : i = []
        · subst hi
          exact orDefault_of_ne_nil hs.input _
        · simp [merge, withDefaults, Layer.input?, hi, orDefault, Option.filter_some]
  have hdump : (s.merge l).dump = l.dump?.getD s.dump :=
    orDefault_getD (ne_nil_of_mem_dumps hs.dump) l.dump
  have hcolor : (s.merge l).color = l.color?.getD s.color :=
    orDefault_getD (ne_nil_of_mem_colors hs.color) l.color
  rw [resolved_singleton, ← hinput, ← hdump, ← hcolor]
  rfl

/-- The faults of settings, that of the listing before that of the colour. -/
theorem fault?_eq_or (s : Settings) (source : Bytes) : s.fault? source =
    (((some s.dump).filter (!dumps.contains ·)).map (.dump source)).or
      (((some s.color).filter (!colors.contains ·)).map (.color source)) := by
  by_cases hdump : s.dump ∈ dumps
  · by_cases hcolor : s.color ∈ colors
    · simp [fault?, Option.filter_some, hdump, hcolor]
    · simp [fault?, Option.filter_some, hdump, hcolor]
  · simp [fault?, Option.filter_some, hdump]

/-- A setting that was among the choices is not among them any more just if a layer sets it to an
unlisted text. -/
theorem filter_getD {choices : List Bytes} {default a : Bytes} (hdefault : default ∈ choices)
    (ha : a ∈ choices) (said : Option Bytes) :
    (some ((said.map (orDefault default)).getD a)).filter (!choices.contains ·) =
      said.filter (Layer.unlisted choices) := by
  cases said with
  | none => simp [Option.filter_some, ha]
  | some d =>
      by_cases hd : d = []
      · subst hd
        simp [Option.filter_some, orDefault, hdefault, Layer.unlisted]
      · simp [Option.filter_some, orDefault, hd, Layer.unlisted]

/-- **A layer is blamed for what it says itself**, and for nothing else. -/
theorem fault?_merge (hs : s.IsValid) (l : Layer) (source : Bytes) :
    (s.merge l).fault? source = l.fault? source := by
  have hdump := filter_getD (show utf8 "text" ∈ dumps by decide) hs.dump l.dump
  have hcolor := filter_getD (show utf8 "auto" ∈ colors by decide) hs.color l.color
  rw [merge_eq_resolved hs, resolved_singleton, fault?_eq_or]
  exact congrArg₂ (fun d c => (Option.map _ d).or (Option.map _ c)) hdump hcolor

/-- A layer on valid settings is refused with its own fault, or says the last word. -/
theorem apply_eq (hs : s.IsValid) (l : Layer) (source : Bytes) : s.apply l source =
    match l.fault? source with
    | some e => .error e
    | none => .ok (s.resolved [l]) := by
  have happly : s.apply l source =
      match (s.merge l).fault? source with
      | some e => .error e
      | none => .ok (s.merge l) := rfl
  rw [happly, fault?_merge hs, merge_eq_resolved hs]

/-! ## Layers one after the other -/

/-- The settings after layers, each from its source, up to the first one that is refused. -/
def applyAll (s : Settings) (ls : List (Layer × Bytes)) : Except SettingsError Settings :=
  ls.foldlM (fun s p => s.apply p.1 p.2) s

/-- **Layers give the resolved settings**, or the fault of the first faulty one. -/
theorem applyAll_eq (hs : s.IsValid) (ls : List (Layer × Bytes)) : s.applyAll ls =
    match ls.findSome? fun p => p.1.fault? p.2 with
    | some e => .error e
    | none => .ok (s.resolved (ls.map Prod.fst)) := by
  induction ls generalizing s with
  | nil => rfl
  | cons p ls ih =>
      rw [applyAll, List.foldlM_cons, List.findSome?_cons]
      cases hfault : p.1.fault? p.2 with
      | some e =>
          have happly : s.apply p.1 p.2 = .error e := by rw [apply_eq hs, hfault]
          rw [happly]
          rfl
      | none =>
          have happly : s.apply p.1 p.2 = .ok (s.resolved [p.1]) := by rw [apply_eq hs, hfault]
          rw [happly, List.map_cons, resolved_cons s p.1 (ls.map Prod.fst)]
          exact ih (isValid_of_apply happly)

/-- Layers are refused just if one of them has a fault. -/
theorem applyAll_eq_error_iff (hs : s.IsValid) {ls : List (Layer × Bytes)} {e : SettingsError} :
    s.applyAll ls = .error e ↔ (ls.findSome? fun p => p.1.fault? p.2) = some e := by
  rw [applyAll_eq hs]
  cases ls.findSome? fun p => p.1.fault? p.2 with
  | none => simp
  | some e' => simp

/-- One layer is refused just if it has a fault. -/
theorem apply_eq_error_iff (hs : s.IsValid) {e : SettingsError} :
    s.apply l source = .error e ↔ l.fault? source = some e := by
  rw [apply_eq hs]
  cases l.fault? source with
  | none => simp
  | some e' => simp

/-- What layers leave is valid. -/
theorem isValid_of_applyAll (hs : s.IsValid) {ls : List (Layer × Bytes)}
    (h : s.applyAll ls = .ok s') : s'.IsValid := by
  induction ls generalizing s with
  | nil =>
      cases h
      exact hs
  | cons p ls ih =>
      obtain ⟨s₁, happly, h⟩ := Except.bind_eq_ok_iff.1 h
      exact ih (isValid_of_apply happly) h

/-- There is no fault just if no layer is faulty. -/
theorem findSome?_fault?_eq_none_iff {ls : List (Layer × Bytes)} :
    (ls.findSome? fun p => p.1.fault? p.2) = none ↔ ∀ p ∈ ls, ¬ p.1.IsFaulty := by
  simp only [List.findSome?_eq_none_iff, Layer.fault?_eq_none_iff]

/-- A layer on top of another one does what the two do one after the other. -/
theorem resolved_atop (s : Settings) (l l' : Layer) :
    s.resolved [l'.atop l] = s.resolved [l, l'] := by
  have hgetD : ∀ {α : Type} (o o' : Option α) (a : α),
      (o'.or o).getD a = o'.getD (o.getD a) := by
    intro α o o' a
    cases o' with
    | none => rfl
    | some b => rfl
  have hinput : (l'.atop l).input? = l'.input?.or l.input? := by
    simp only [Layer.input?, Layer.atop]
    cases l'.input with
    | none => rfl
    | some i =>
        by_cases hi : i = []
        · simp [hi, Option.filter_some]
        · simp [hi, Option.filter_some]
  rw [resolved_cons s l [l'], resolved_singleton, resolved_singleton, resolved_singleton, hinput]
  simp only [Layer.atop, Layer.dump?, Layer.color?, Option.map_or, hgetD]

/-- A layer on top of another one is refused only if one of the two is. -/
theorem isFaulty_atop {l l' : Layer} (h : (l'.atop l).IsFaulty) : l'.IsFaulty ∨ l.IsFaulty := by
  simp only [Layer.IsFaulty, Layer.atop, Option.or_eq_some_iff] at h ⊢
  grind

/-- **Layers resolve to the last setter, setting by setting.**  Let `c` be the settings that nothing
was said about, or those of a file, and apply layers to it, one after the other, until one is
refused.

* The first faulty one is refused, with its own fault, and none before it: the first that asks for a
  format of the listing or a rule for colour that is neither empty nor among the choices.
* If none is faulty, every setting is what was said about it last, or what `c` says: of the inputs
  the empty ones do not count, an empty format stands for `text` and an empty rule for `auto`.
* After every layer the format and the rule are among the choices, and there is an input.
* Two layers that are taken one after the other do what the second one on top of the first does. -/
theorem layers_resolve (hc : c = default ∨ ∃ data path, ofFile data path = .ok c)
    (ls : List (Layer × Bytes)) :
    (∀ before l source after, ls = before ++ (l, source) :: after →
      (∀ p ∈ before, ¬ p.1.IsFaulty) → l.IsFaulty →
        ∃ s e, c.applyAll before = .ok s ∧ l.fault? source = some e ∧
          s.apply l source = .error e ∧ c.applyAll ls = .error e) ∧
    ((∀ p ∈ ls, ¬ p.1.IsFaulty) → c.applyAll ls = .ok (c.resolved (ls.map Prod.fst))) ∧
    (∀ before s, before <+: ls → c.applyAll before = .ok s →
      s.dump ∈ dumps ∧ s.color ∈ colors ∧ s.input ≠ []) ∧
    ∀ l source l' source' s, c.applyAll [(l, source), (l', source')] = .ok s →
      ∀ source'', c.apply (l'.atop l) source'' = .ok s := by
  have hvalid : c.IsValid := by
    rcases hc with rfl | ⟨data, path, h⟩
    · exact isValid_default
    · exact isValid_of_ofFile h
  have hok : ∀ ls, (∀ p ∈ ls, ¬ p.1.IsFaulty) →
      c.applyAll ls = .ok (c.resolved (ls.map Prod.fst)) := by
    intro ls h
    rw [applyAll_eq hvalid, findSome?_fault?_eq_none_iff.2 h]
  refine ⟨?_, hok ls, ?_, ?_⟩
  · intro before l source after heq hbefore hfaulty
    obtain ⟨e, he⟩ := Option.isSome_iff_exists.1 ((Layer.isFaulty_iff source).1 hfaulty)
    have hs := isValid_of_applyAll hvalid (hok before hbefore)
    refine ⟨_, e, hok before hbefore, he, (apply_eq_error_iff hs).2 he, ?_⟩
    rw [applyAll_eq_error_iff hvalid, List.findSome?_eq_some_iff]
    exact ⟨before, (l, source), after, heq, he, fun p hp =>
      (Layer.fault?_eq_none_iff _).2 (hbefore p hp)⟩
  · intro before s _ h
    have hs := isValid_of_applyAll hvalid h
    exact ⟨hs.dump, hs.color, hs.input⟩
  · intro l source l' source' s h source''
    have hnone : ∀ p ∈ [(l, source), (l', source')], ¬ p.1.IsFaulty := by
      rw [← findSome?_fault?_eq_none_iff, Option.eq_none_iff_forall_ne_some]
      intro e he
      rw [(applyAll_eq_error_iff hvalid).2 he] at h
      cases h
    have hatop : ¬ (l'.atop l).IsFaulty := by
      intro hfaulty
      rcases isFaulty_atop hfaulty with hl' | hl
      · exact hnone (l', source') (by simp) hl'
      · exact hnone (l, source) (by simp) hl
    rw [hok _ hnone] at h
    rw [apply_eq hvalid, (Layer.fault?_eq_none_iff _).2 hatop]
    exact (congrArg Except.ok (resolved_atop c l l')).trans h

/-- A file asks for the YAML listing, the environment for an input and no colour.  Flags with an
empty input and an empty format keep the input and bring back the listing as text; flags with an
unlisted rule for colour are refused. -/
theorem layers_resolve_file :
    let c : Settings := ⟨"input.txt", false, "yaml", "auto", []⟩
    let environment : Layer := { input := some "a.num", color := some "never" }
    let flags : Layer := { input := some [], lenient := some true, dump := some [] }
    let purple : Layer := { dump := some "none", color := some "purple" }
    ofFile "dump: yaml\n" "numlang.yaml" = .ok c ∧
    (∀ p ∈ [(environment, utf8 "environment"), (flags, utf8 "command line")], ¬ p.1.IsFaulty) ∧
    c.applyAll [(environment, "environment"), (flags, "command line")] =
      .ok ⟨"a.num", true, "text", "never", []⟩ ∧
    c.apply (flags.atop environment) "both" = .ok ⟨"a.num", true, "text", "never", []⟩ ∧
    (∀ p ∈ [(environment, utf8 "environment")], ¬ p.1.IsFaulty) ∧ purple.IsFaulty ∧
    c.applyAll [(environment, "environment"), (purple, "command line"), (flags, "again")] =
      .error (.color "command line" "purple") := by
  intro c environment flags purple
  have hfile : ofFile "dump: yaml\n" "numlang.yaml" = .ok c :=
    Except.eq_ok_of_toOption (by decide +kernel)
  have hc : c = default ∨ ∃ data path, ofFile data path = .ok c := .inr ⟨_, _, hfile⟩
  have hplain : ¬ environment.IsFaulty := (Layer.fault?_eq_none_iff []).1 (by decide)
  have hflags : ¬ flags.IsFaulty := (Layer.fault?_eq_none_iff []).1 (by decide)
  have hfaulty : purple.IsFaulty := (Layer.isFaulty_iff []).2 (by decide)
  have hnone : ∀ p ∈ [(environment, utf8 "environment"), (flags, utf8 "command line")],
      ¬ p.1.IsFaulty := by
    simp [hplain, hflags]
  obtain ⟨-, hresolved, -, hatop⟩ :=
    layers_resolve hc [(environment, "environment"), (flags, "command line")]
  obtain ⟨hrefused, -, -, -⟩ := layers_resolve hc
    [(environment, "environment"), (purple, "command line"), (flags, "again")]
  have hboth := hresolved hnone
  have hfirst : ∀ p ∈ [(environment, utf8 "environment")], ¬ p.1.IsFaulty := by
    simpa using hplain
  obtain ⟨_, e, -, he, -, hrefused⟩ := hrefused _ _ _ [(flags, "again")] rfl hfirst hfaulty
  obtain rfl : SettingsError.color "command line" "purple" = e :=
    Option.some.inj (Eq.trans (by decide) he)
  refine ⟨hfile, hnone, hboth.trans (by decide), ?_, hfirst, hfaulty, hrefused⟩
  exact (hatop _ _ _ _ _ hboth "both").trans (by decide)

end Settings

end LineCalc
