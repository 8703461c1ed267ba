import StyleTemplate.Command
import StyleTemplate.Proofs.Command.Configured
import StyleTemplate.Proofs.Command.Checking
import StyleTemplate.Proofs.Reports
import StyleTemplate.Proofs.Severity

/-! What a check prints and how it ends. The patterns of the command come before those of the settings
(`CheckOptions.severity_eq_iff`), and every problem that is not off is printed once, target by target, in
the order of the places; the errors among what is printed are counted (`CheckOptions.check_resolved`). -/

namespace StyleTemplate

/-- A report with what there is to say about a diagnostic, under the heading of a severity, and with a text
that shows it. -/
structure Report.IsOn (r : Report) (p : Project) (found : Checked) (d : Diagnostic)
    (severity : Severity) : Prop where
  heading : severity.heading? = some r.heading
  code : r.code = d.code
  message : r.message = d.message
  path : r.path = (CheckOptions.shownPath p found.target.path).text
  source : r.source = found.source
  span : r.span = d.span
  label : r.label = d.label
  notes : r.notes = d.help?.toList
  displayed : r.Displays r.text

namespace CheckOptions

variable {c : CheckOptions} {p : Project} {settings : Settings}

/-! ### Severities -/

/-- The severity of a pattern: ignored patterns come before selected ones, and both before those of the
settings. -/
def patternSeverity? (c : CheckOptions) (settings : Settings) (pattern : String) : Option Severity :=
  if pattern ∈ c.ignore then some .off
  else if pattern ∈ c.select then some .error
  else settings.severities.patterns.get? pattern

/-- The severity of a code: off if the code itself is ignored, an error if it is selected, and else that
of the longest pattern that begins it. -/
inductive Resolves (c : CheckOptions) (settings : Settings) (code : String) : Severity → Prop
  | ignored (h : code ∈ c.ignore) : Resolves c settings code .off
  | selected (hkept : code ∉ c.ignore) (h : code ∈ c.select) : Resolves c settings code .error
  | longest {severity : Severity} (hkept : code ∉ c.ignore) (hfree : code ∉ c.select)
      (h : Severity.Resolves (c.patternSeverity? settings) code severity) :
    Resolves c settings code severity

private theorem get?_foldl_set (codes : List String) (severity : Severity) (rules : SeverityRules)
    (pattern : String) :
    (codes.foldl (fun rules code => rules.set code severity) rules).patterns.get? pattern =
      if pattern ∈ codes then some severity else rules.patterns.get? pattern := by
  induction codes generalizing rules with
  | nil => rfl
  | cons code codes ih =>
    rw [List.foldl_cons, ih, SeverityRules.get?_set]
    by_cases hlater : pattern ∈ codes
    · simp [hlater]
    · simp [hlater]

theorem get?_severities (pattern : String) :
    (c.severities settings).patterns.get? pattern = c.patternSeverity? settings pattern := by
  rw [severities, get?_foldl_set, get?_foldl_set, patternSeverity?]

theorem severity_eq_iff {code : String} {severity : Severity} :
    (c.severities settings).severity code = severity ↔ c.Resolves settings code severity := by
  rw [SeverityRules.severity_eq_iff, show (c.severities settings).patterns.get? =
    c.patternSeverity? settings from funext get?_severities]
  constructor
  · intro h
    by_cases hignored : code ∈ c.ignore
    · obtain rfl := h.unique (.decided (Severity.decides_self (if_pos hignored)))
      exact .ignored hignored
    · by_cases hselected : code ∈ c.select
      · obtain rfl := h.unique (.decided (Severity.decides_self
          ((if_neg hignored).trans (if_pos hselected))))
        exact .selected hignored hselected
      · exact .longest hignored hselected h
  · intro h
    cases h with
    | ignored h => exact .decided (Severity.decides_self (if_pos h))
    | selected hkept h => exact .decided (Severity.decides_self ((if_neg hkept).trans (if_pos h)))
    | longest hkept hfree h => exact h

/-! ### Targets -/

/-- What is found in a target: its diagnostics, with the values that belong to it, in the order of their
places. -/
structure IsCheckOf (p : Project) (settings : Settings) (t : CheckTarget) (found : Checked) :
    Prop where
  target : found.target = t
  source : p.files.read? t.path = some found.source
  diagnostics : ∃ resolver, p.resolver settings t.layers = .ok resolver ∧
    StablySorted (fun d : Diagnostic => d.span.start)
      (compile found.source resolver Filter.builtins).diagnostics found.diagnostics

private theorem exists_checked {targets : List CheckTarget}
    (hreadable : ∀ target ∈ targets, (p.files.read? target.path).isSome ∧
      (p.resolver settings target.layers).toOption.isSome) :
    ∃ found, targets.mapM (checked p settings) = .ok found ∧
      List.Forall₂ (IsCheckOf p settings) targets found := by
  induction targets with
  | nil => exact ⟨[], rfl, .nil⟩
  | cons target targets ih =>
    obtain ⟨⟨hsource, hresolver⟩, hothers⟩ := List.forall_mem_cons.mp hreadable
    obtain ⟨found, hfound, hchecks⟩ := ih hothers
    obtain ⟨source, hsource⟩ := Option.isSome_iff_exists.mp hsource
    cases hlayers : p.resolver settings target.layers with
    | error error =>
      rw [hlayers] at hresolver
      exact nomatch hresolver
    | ok resolver =>
      have hchecked : checked p settings target =
          .ok ⟨target, source, checkSource source resolver Filter.builtins⟩ := by
        rw [checked, prepare, hsource]
        simp only [hlayers]
        rfl
      rw [List.mapM_cons, hchecked, hfound]
      exact ⟨_, rfl, .cons ⟨rfl, hsource, resolver, hlayers, stablySorted_checkSource ..⟩ hchecks⟩

/-! ### What is printed -/

/-- The diagnostics that are not off, each with the stylesheet it was found in. -/
def shown (severityOf : String → Severity) (found : List Checked) : List (Checked × Diagnostic) :=
  found.flatMap fun f => (f.diagnostics.filter (severityOf ·.code ≠ .off)).map (f, ·)

/-- The line that tells how many errors there are, and how many stylesheets have one. -/
def foundLine (errors files : Nat) : String :=
  "Found " ++ (toString errors ++ " " ++ "error" ++ (if errors = 1 then "" else "s")) ++ " in " ++
    (toString files ++ " " ++ "file" ++ (if files = 1 then "" else "s")) ++ "."

/-- What a check comes to: a report on every diagnostic that is shown, and an error exactly when an error
is among them, with a line that counts those errors and the stylesheets that have one. -/
structure ReportsShown (p : Project) (severityOf : String → Severity) (found : List Checked)
    (outcome : Outcome) : Prop where
  output : ∃ reports, outcome.output = String.join (reports.map fun r => r.text ++ "\n" ++ "\n") ∧
    List.Forall₂ (fun (f, d) r => Report.IsOn r p f d (severityOf d.code)) (shown severityOf found)
      reports
  exitCode : outcome.exitCode =
    if ∃ step ∈ shown severityOf found, severityOf step.2.code = .error then 1 else 0
  closing : outcome.exitCode = 1 → ∃ lines, outcome.errorLines = lines ++
    [foundLine ((shown severityOf found).countP (severityOf ·.2.code = .error))
      (found.countP fun f => f.diagnostics.any (severityOf ·.code = .error))]

section Shown

variable (rules : SeverityRules)

/-- Only a diagnostic whose severity is off has no report. -/
private theorem report?_eq_none {d : Diagnostic} {severity : Severity} {source path : String} :
    d.report? severity source path = none ↔ severity = .off := by
  rw [Diagnostic.report?, Option.map_eq_none_iff]
  cases severity <;> simp [Severity.heading?]

private theorem isOn_of_report? {f : Checked} {d : Diagnostic} {severity : Severity} {r : Report}
    (h : d.report? severity f.source (shownPath p f.target.path).text = some r) :
    r.IsOn p f d severity := by
  rw [Diagnostic.report?, Option.map_eq_some_iff] at h
  obtain ⟨heading, hheading, rfl⟩ := h
  exact ⟨hheading, rfl, rfl, rfl, rfl, rfl, rfl, rfl, Report.displays_text _⟩

/-- The reports on one stylesheet, in front of those on others. -/
private theorem forall₂_reports (f : Checked) {steps : List (Checked × Diagnostic)}
    {others : List Report}
    (hothers : List.Forall₂ (fun (f, d) r => Report.IsOn r p f d (rules.severity d.code)) steps others) :
    List.Forall₂ (fun (f, d) r => Report.IsOn r p f d (rules.severity d.code))
      ((f.diagnostics.filter (rules.severity ·.code ≠ .off)).map (f, ·) ++ steps)
      (f.reports p rules ++ others) := by
  rw [Checked.reports, reportsOn]
  generalize f.diagnostics = ds
  induction ds with
  | nil => exact hothers
  | cons d ds ih =>
    rw [List.filterMap_cons]
    cases hreport : d.report? (rules.severity d.code) f.source (shownPath p f.target.path).text with
    | none =>
      rw [List.filter_cons_of_neg (by simpa using report?_eq_none.mp hreport)]
      exact ih
    | some r =>
      have hshown : rules.severity d.code ≠ .off := by
        intro hoff
        rw [report?_eq_none.mpr hoff] at hreport
        exact nomatch hreport
      rw [List.filter_cons_of_pos (by simpa using hshown)]
      exact .cons (isOn_of_report? hreport) ih

private theorem forall₂_shown (found : List Checked) :
    List.Forall₂ (fun (f, d) r => Report.IsOn r p f d (rules.severity d.code))
      (shown rules.severity found) (found.flatMap (·.reports p rules)) := by
  induction found with
  | nil => exact .nil
  | cons f found ih =>
    rw [shown, List.flatMap_cons, List.flatMap_cons]
    exact forall₂_reports rules f ih

private theorem countP_shown (found : List Checked) :
    (shown rules.severity found).countP (rules.severity ·.2.code = .error) =
      (found.map (·.errors rules)).sum := by
  rw [shown, List.countP_flatMap]
  congr 1
  refine List.map_congr_left fun f _ => ?_
  rw [Function.comp_apply, List.countP_map, List.countP_filter, Checked.errors, countErrors]
  refine List.countP_congr fun d _ => ?_
  cases hseverity : rules.severity d.code <;> simp [hseverity]

private theorem countP_blamed (found : List Checked) :
    (found.countP fun f => f.diagnostics.any (rules.severity ·.code = .error)) =
      found.countP fun f => 0 < f.errors rules := by
  refine List.countP_congr fun f _ => ?_
  rw [Checked.errors, countErrors, decide_eq_true_iff, List.countP_pos_iff, List.any_eq_true]

/-- A check that ran through shows what it found. -/
private theorem reportsShown_of_reportsFound {found : List Checked}
    (h : ReportsFound p (c.severities settings) found (c.run p)) (quiet : Bool) (verbose : Nat) :
    ReportsShown p (c.severities settings).severity found
      ((Command.check c).outcome quiet verbose p) := by
  have herrors := countP_shown (c.severities settings) found
  have hblamed : (0 < (found.map (·.errors (c.severities settings))).sum) ↔
      ∃ step ∈ shown (c.severities settings).severity found,
        (c.severities settings).severity step.2.code = .error := by
    rw [← herrors, List.countP_pos_iff]
    simp only [decide_eq_true_iff]
  rw [Command.outcome, Command.run]
  refine ⟨⟨found.flatMap (·.reports p (c.severities settings)), ?_, forall₂_shown _ found⟩, ?_, ?_⟩
  · simp only [h.printed, List.map_map]
    rfl
  · simp only [h.ending, ← hblamed]
    split
    · rfl
    · rfl
  · simp only [h.ending, herrors, countP_blamed]
    intro hfailed
    split
    · exact ⟨_, rfl⟩
    · rename_i hnone
      rw [if_neg hnone] at hfailed
      exact absurd hfailed Nat.zero_ne_one

end Shown

/-- A check of nothing shows nothing. -/
private theorem reportsShown_nothing (hsettings : p.settings = .ok settings)
    (htargets : c.targets p settings = []) (severityOf : String → Severity) (quiet : Bool)
    (verbose : Nat) :
    ReportsShown p severityOf [] ((Command.check c).outcome quiet verbose p) := by
  have hrun : c.run p = ⟨[], settings.loadedEvent :: c.searchEvents p settings, p.files,
      .nothingTo .check⟩ := by
    rw [run, hsettings]
    simp only [htargets]
  rw [Command.outcome, Command.run, hrun]
  refine ⟨⟨[], rfl, .nil⟩, ?_, fun hfailed => absurd hfailed Nat.zero_ne_one⟩
  simp [shown, Ending.succeeds]

/-- A check of targets that can all be read prints every problem that is not off, target by target, and
fails exactly when an error is among them. -/
theorem check_resolved (hsettings : p.settings = .ok settings)
    (hreadable : ∀ target ∈ c.targets p settings, (p.files.read? target.path).isSome ∧
      (p.resolver settings target.layers).toOption.isSome) (quiet : Bool) (verbose : Nat) :
    ∃ severityOf found, (∀ code severity,
        severityOf code = severity ↔ c.Resolves settings code severity) ∧
      List.Forall₂ (IsCheckOf p settings) (c.targets p settings) found ∧
      ReportsShown p severityOf found ((Command.check c).outcome quiet verbose p) := by
  obtain ⟨found, hfound, hchecks⟩ := exists_checked hreadable
  refine ⟨_, found, fun code severity => severity_eq_iff, hchecks, ?_⟩
  cases htargets : c.targets p settings with
  | nil =>
    rw [htargets] at hchecks
    cases hchecks
    exact reportsShown_nothing hsettings htargets _ quiet verbose
  | cons target targets =>
    have hreports := reportsFound_run hsettings (htargets ▸ List.cons_ne_nil target targets) hfound
    exact reportsShown_of_reportsFound hreports quiet verbose

/-- Settings with a severity for a whole family of codes and for one of them, and a stylesheet with three
kinds of problems. -/
private def ruledProject : Project where
  root := ⟨"/p"⟩
  files := ⟨[(["p"], .directory),
    (["p", "dcss.toml"], .file ("\n".intercalate
      ["[diagnostics.severity]", "D1 = 'warning'", "D100 = 'hint'", "[[stylesheets]]",
        "handle = 'a'", "path = 'a.dcss'"])),
    (["p", "a.dcss"], .file "$u|nope|default")]⟩
  userSettings := none

/-- A code that is both selected and ignored is off, and the rule for the code `D100` comes before the
selected family `D10`. -/
theorem check_resolved_overlapping :
    let c : CheckOptions := ⟨[], none, ["D10", "D102"], ["D102"]⟩
    ∃ settings severityOf found, ruledProject.settings = .ok settings ∧
      (∀ target ∈ c.targets ruledProject settings,
        (ruledProject.files.read? target.path).isSome ∧
        (ruledProject.resolver settings target.layers).toOption.isSome) ∧
      ["D100", "D102", "D103"].map severityOf = [.hint, .off, .error] ∧
      (∀ code severity, severityOf code = severity ↔ c.Resolves settings code severity) ∧
      List.Forall₂ (IsCheckOf ruledProject settings) (c.targets ruledProject settings) found ∧
      ReportsShown ruledProject severityOf found ((Command.check c).outcome false 0 ruledProject) := by
  intro c
  have haccepted : ruledProject.settings.toOption.any (fun settings => decide
      ((∀ target ∈ c.targets ruledProject settings,
          (ruledProject.files.read? target.path).isSome ∧
          (ruledProject.resolver settings target.layers).toOption.isSome) ∧
        ["D100", "D102", "D103"].map (c.severities settings).severity =
          [.hint, .off, .error])) = true := by
    decide +kernel
  obtain ⟨settings, hsettings, hchecked⟩ := Project.exists_settings haccepted
  obtain ⟨hreadable, hseverities⟩ := of_decide_eq_true hchecked
  obtain ⟨severityOf, found, hresolves, hfound⟩ := check_resolved hsettings hreadable false 0
  have hsame : (c.severities settings).severity = severityOf :=
    funext fun code => severity_eq_iff.mpr ((hresolves code _).mp rfl)
  exact ⟨settings, severityOf, found, hsettings, hreadable, hsame ▸ hseverities, hresolves, hfound⟩

end CheckOptions

end StyleTemplate
