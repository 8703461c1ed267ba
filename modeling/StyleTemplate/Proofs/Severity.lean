import Mathlib.Data.List.MinMax
import StyleTemplate.Severity
import StyleTemplate.Text.Bytes

/-! Which rule decides about a code. The patterns that speak about a code are beginnings of it, so there
is at most one longest, and its severity is the one that counts (`SeverityRules.severity_eq_iff`),
whatever the order in which rules are given and gone through (`SeverityRules.severity_by_longest`). -/

namespace StyleTemplate

open Text (byteSize)

namespace Severity

/-- A pattern has a severity and begins the code, and no longer one does. -/
structure Decides (severityOf : String → Option Severity) (code pattern : String) (severity : Severity) :
    Prop where
  given : severityOf pattern = some severity
  begins : pattern.toList <+: code.toList
  longest : ∀ other, (severityOf other).isSome → other.toList <+: code.toList →
    other.length ≤ pattern.length

/-- The severity of a code: that of the pattern that decides, or an error where no pattern speaks. -/
inductive Resolves (severityOf : String → Option Severity) (code : String) : Severity → Prop
  | decided {pattern : String} {severity : Severity} (h : Decides severityOf code pattern severity) :
    Resolves severityOf code severity
  | unruled (h : ∀ pattern, (severityOf pattern).isSome → ¬pattern.toList <+: code.toList) :
    Resolves severityOf code .error

/-- A pattern begins the code, and no longer one does that has a severity. -/
structure Leads (severityOf : String → Option Severity) (code pattern : String) : Prop where
  begins : pattern.toList <+: code.toList
  longest : ∀ other, (severityOf other).isSome → other.toList <+: code.toList →
    other.length ≤ pattern.length

variable {severityOf : String → Option Severity} {code pattern other : String}
  {severity severity' : Severity}

namespace Decides

theorem pattern_unique (h : Decides severityOf code pattern severity)
    (h' : Decides severityOf code other severity') : pattern = other := by
  have hle := h'.longest pattern (by rw [h.given, Option.isSome_some]) h.begins
  have hge := h.longest other (by rw [h'.given, Option.isSome_some]) h'.begins
  have hlength : pattern.toList.length = other.toList.length := by
    rw [String.length_toList, String.length_toList]
    exact Nat.le_antisymm hle hge
  have hbegins := List.prefix_of_prefix_length_le h.begins h'.begins (Nat.le_of_eq hlength)
  exact String.toList_inj.mp (hbegins.eq_of_length hlength)

end Decides

theorem Resolves.unique (h : Resolves severityOf code severity)
    (h' : Resolves severityOf code severity') : severity = severity' := by
  cases h with
  | decided h =>
    cases h' with
    | decided h' =>
      obtain rfl := h.pattern_unique h'
      exact Option.some.inj (h.given.symm.trans h'.given)
    | unruled hnone => exact absurd h.begins (hnone _ (by rw [h.given, Option.isSome_some]))
  | unruled hnone =>
    cases h' with
    | decided h' => exact absurd h'.begins (hnone _ (by rw [h'.given, Option.isSome_some]))
    | unruled => rfl

theorem decides_iff : Decides severityOf code pattern severity ↔
    severityOf pattern = some severity ∧ Leads severityOf code pattern :=
  ⟨fun h => ⟨h.given, h.begins, h.longest⟩, fun h => ⟨h.1, h.2.begins, h.2.longest⟩⟩

/-- A pattern that is the code itself is longer than all others that begin it. -/
theorem leads_self : Leads severityOf code code := by
  refine ⟨List.prefix_refl _, fun other _ hbegins => ?_⟩
  rw [← String.length_toList, ← String.length_toList]
  exact hbegins.length_le

theorem decides_self (h : severityOf code = some severity) : Decides severityOf code code severity :=
  decides_iff.mpr ⟨h, leads_self⟩

/-- Of two beginnings of a text the one with no more bytes has no more characters. -/
theorem length_le_of_byteSize_le {cs longer shorter : List Char} (hlonger : longer <+: cs)
    (hshorter : shorter <+: cs) (hsize : byteSize shorter ≤ byteSize longer) :
    shorter.length ≤ longer.length := by
  by_contra hlength
  obtain ⟨rest, rfl⟩ := List.prefix_of_prefix_length_le hlonger hshorter (Nat.le_of_not_le hlength)
  have hrest : rest ≠ [] := by
    rintro rfl
    exact hlength (by simp)
  have := Text.byteSize_pos hrest
  rw [Text.byteSize_append] at hsize
  omega

theorem speaksOf_iff : speaksOf pattern code ↔ pattern.toList <+: code.toList :=
  List.isPrefixOf_iff_prefix

theorem deciding?_eq_none {rules : List (String × Severity)} (h : deciding? code rules = none) :
    ∀ rule ∈ rules, ¬speaksOf rule.1 code := by
  induction rules with
  | nil => simp
  | cons rule rules ih =>
    rw [deciding?] at h
    split at h
    · rename_i hsilent
      exact List.forall_mem_cons.mpr ⟨by rw [hsilent]; exact Bool.false_ne_true, ih h⟩
    · exact nomatch h
    · split at h
      · exact nomatch h
      · exact nomatch h

theorem deciding?_eq_some {rules : List (String × Severity)} {rule : String × Severity}
    (h : deciding? code rules = some rule) :
    rule ∈ rules ∧ speaksOf rule.1 code ∧
      ∀ other ∈ rules, speaksOf other.1 code → other.1.length ≤ rule.1.length := by
  induction rules generalizing rule with
  | nil => exact nomatch h
  | cons first rules ih =>
    rw [deciding?] at h
    split at h
    · rename_i hsilent
      obtain ⟨hmem, hspeaks, hlongest⟩ := ih h
      refine ⟨List.mem_cons_of_mem _ hmem, hspeaks,
        List.forall_mem_cons.mpr ⟨fun hfirst => ?_, hlongest⟩⟩
      rw [hsilent] at hfirst
      exact absurd hfirst Bool.false_ne_true
    · rename_i hspeaks hnone
      obtain rfl := Option.some.inj h
      exact ⟨List.mem_cons_self, hspeaks, List.forall_mem_cons.mpr
        ⟨fun _ => Nat.le_refl _, fun other hother hspeaks' =>
          absurd hspeaks' (deciding?_eq_none hnone other hother)⟩⟩
    · rename_i best hspeaks hbest
      obtain ⟨hmem, hspeaks', hlongest⟩ := ih hbest
      split at h
      · rename_i hlt
        obtain rfl := Option.some.inj h
        exact ⟨List.mem_cons_of_mem _ hmem, hspeaks',
          List.forall_mem_cons.mpr ⟨fun _ => Nat.le_of_lt hlt, hlongest⟩⟩
      · rename_i hge
        obtain rfl := Option.some.inj h
        exact ⟨List.mem_cons_self, hspeaks, List.forall_mem_cons.mpr
          ⟨fun _ => Nat.le_refl _, fun other hother hspeaks =>
            Nat.le_trans (hlongest other hother hspeaks) (Nat.le_of_not_lt hge)⟩⟩

end Severity

namespace SeverityRules

variable {rules : SeverityRules} {code : String} {severity : Severity}

theorem resolves (rules : SeverityRules) (code : String) :
    Severity.Resolves rules.patterns.get? code (rules.severity code) := by
  have hmem (pattern : String) (h : (rules.patterns.get? pattern).isSome) :
      ∃ severity, (pattern, severity) ∈ rules.patterns.entries := by
    obtain ⟨severity, hseverity⟩ := Option.isSome_iff_exists.mp h
    exact ⟨severity, Table.mem_entries_iff.mpr hseverity⟩
  rw [SeverityRules.severity, Severity.under]
  split
  · rename_i pattern severity hdeciding
    obtain ⟨hrule, hspeaks, hlongest⟩ := Severity.deciding?_eq_some hdeciding
    refine .decided ⟨Table.mem_entries_iff.mp hrule, Severity.speaksOf_iff.mp hspeaks, ?_⟩
    intro other hother hbegins
    obtain ⟨severity', hother⟩ := hmem other hother
    exact hlongest _ hother (Severity.speaksOf_iff.mpr hbegins)
  · rename_i hnone
    refine .unruled fun pattern hpattern hbegins => ?_
    obtain ⟨severity, hrule⟩ := hmem pattern hpattern
    exact Severity.deciding?_eq_none hnone _ hrule (Severity.speaksOf_iff.mpr hbegins)

/-- The severity of a code is that of the longest pattern that begins it. -/
theorem severity_eq_iff :
    rules.severity code = severity ↔ Severity.Resolves rules.patterns.get? code severity :=
  ⟨fun h => h ▸ rules.resolves code, fun h => (rules.resolves code).unique h⟩

/-! ### Rules gone through in any order -/

/-- The severity that is found by going through rules in some order: that of the rule for the very code,
and otherwise that of the last among the rules with the most bytes that speak about it. -/
def searched (rules : SeverityRules) (order : List (String × Severity)) (code : String) : Severity :=
  match rules.patterns.get? code with
  | some severity => severity
  | none =>
    match (order.filter (Severity.speaksOf ·.1 code)).reverse.argmax (byteSize ·.1.toList) with
    | some rule => rule.2
    | none => .error

theorem mem_reverse_filter_speaksOf {order : List (String × Severity)}
    (h : order.Perm rules.patterns.entries) {pattern : String} :
    (pattern, severity) ∈ (order.filter (Severity.speaksOf ·.1 code)).reverse ↔
      rules.patterns.get? pattern = some severity ∧ pattern.toList <+: code.toList := by
  rw [List.mem_reverse, List.mem_filter, h.mem_iff, Severity.speaksOf_iff]
  exact and_congr_left fun _ => Table.mem_entries_iff

theorem resolves_searched {order : List (String × Severity)}
    (h : order.Perm rules.patterns.entries) (code : String) :
    Severity.Resolves rules.patterns.get? code (rules.searched order code) := by
  rw [searched]
  split
  · rename_i severity hexact
    exact .decided (Severity.decides_self hexact)
  · split
    · rename_i rule hrule
      obtain ⟨hgiven, hbegins⟩ := (mem_reverse_filter_speaksOf h).mp (List.argmax_mem hrule)
      refine .decided ⟨hgiven, hbegins, fun other hother hbegins' => ?_⟩
      obtain ⟨severity', hgiven'⟩ := Option.isSome_iff_exists.mp hother
      have hmem := (mem_reverse_filter_speaksOf h).mpr ⟨hgiven', hbegins'⟩
      have hsize := List.le_of_mem_argmax hmem hrule
      rw [← String.length_toList, ← String.length_toList]
      exact Severity.length_le_of_byteSize_le hbegins hbegins' hsize
    · rename_i hnone
      refine .unruled fun pattern hpattern hbegins => ?_
      obtain ⟨severity, hgiven⟩ := Option.isSome_iff_exists.mp hpattern
      have hmem := (mem_reverse_filter_speaksOf h).mpr ⟨hgiven, hbegins⟩
      rw [List.argmax_eq_none.mp hnone] at hmem
      exact nomatch hmem

/-! ### Rules given in any order -/

theorem get?_set (rules : SeverityRules) (pattern : String) (severity : Severity) (other : String) :
    (rules.set pattern severity).patterns.get? other =
      if other = pattern then some severity else rules.patterns.get? other :=
  Table.get?_insert ..

/-- Gives severities to patterns, one after the other. -/
def setAll (rules : SeverityRules) (settings : List (String × Severity)) : SeverityRules :=
  settings.foldl (fun rules (pattern, severity) => rules.set pattern severity) rules

/-- The last severity that is given to a pattern counts. -/
theorem get?_setAll (rules : SeverityRules) (settings : List (String × Severity)) (pattern : String) :
    (rules.setAll settings).patterns.get? pattern =
      ((settings.filter (·.1 = pattern)).getLast?.map (·.2)).or (rules.patterns.get? pattern) := by
  induction settings generalizing rules with
  | nil => rfl
  | cons setting settings ih =>
    change ((rules.set setting.1 setting.2).setAll settings).patterns.get? pattern = _
    rw [ih, get?_set]
    by_cases h : setting.1 = pattern
    · rw [List.filter_cons_of_pos (by simpa using h), List.getLast?_cons, if_pos h.symm]
      cases (settings.filter (·.1 = pattern)).getLast? <;> rfl
    · rw [List.filter_cons_of_neg (by simpa using h), if_neg (Ne.symm h)]

theorem setAll_eq {settings settings' : List (String × Severity)}
    (h : ∀ pattern, settings.filter (·.1 = pattern) = settings'.filter (·.1 = pattern)) :
    rules.setAll settings = rules.setAll settings' := by
  have hpatterns : (rules.setAll settings).patterns = (rules.setAll settings').patterns :=
    Table.ext_get? fun pattern => by rw [get?_setAll, get?_setAll, h]
  exact congrArg SeverityRules.mk hpatterns

/-! ### One more rule -/

theorem severity_set_of_leads {pattern : String} (h : Severity.Leads rules.patterns.get? code pattern)
    (severity : Severity) : (rules.set pattern severity).severity code = severity := by
  refine severity_eq_iff.mpr (.decided ⟨?_, h.begins, fun other hother hbegins => ?_⟩)
  · rw [get?_set, if_pos rfl]
  · by_cases hsame : other = pattern
    · rw [hsame]
    · rw [get?_set, if_neg hsame] at hother
      exact h.longest other hother hbegins

theorem severity_set_of_not_leads {pattern : String}
    (h : ¬Severity.Leads rules.patterns.get? code pattern) (severity : Severity) :
    (rules.set pattern severity).severity code = rules.severity code := by
  refine severity_eq_iff.mpr ?_
  have hresolves := rules.resolves code
  generalize rules.severity code = before at hresolves ⊢
  cases hresolves with
  | @decided best _ hbest =>
    have hne : best ≠ pattern := by
      rintro rfl
      exact h (Severity.decides_iff.mp hbest).2
    refine .decided ⟨by rw [get?_set, if_neg hne, hbest.given], hbest.begins,
      fun other hother hbegins => ?_⟩
    by_cases hsame : other = pattern
    · -- were the pattern longer than the one that decides, it would lead
      subst hsame
      by_contra hlonger
      exact h ⟨hbegins, fun third hthird hbegins' =>
        (hbest.longest third hthird hbegins').trans (Nat.le_of_not_le hlonger)⟩
    · rw [get?_set, if_neg hsame] at hother
      exact hbest.longest other hother hbegins
  | unruled hnone =>
    refine .unruled fun other hother hbegins => ?_
    by_cases hsame : other = pattern
    · subst hsame
      exact h ⟨hbegins, fun third hthird hbegins' => (hnone third hthird hbegins').elim⟩
    · rw [get?_set, if_neg hsame] at hother
      exact hnone other hother hbegins

/-- The severity of a code is that of the longest pattern that begins it. It is what a search finds that
goes through the rules in any order, and it does not depend on the order in which different patterns were
given their severities. One more rule counts for the codes that its pattern begins and no longer one
does, and changes nothing for the others. -/
theorem severity_by_longest (rules : SeverityRules) (code : String) :
    (∀ severity, rules.severity code = severity ↔
      Severity.Resolves rules.patterns.get? code severity) ∧
    (∀ order : List (String × Severity), order.Perm rules.patterns.entries →
      rules.searched order code = rules.severity code) ∧
    (∀ settings settings' : List (String × Severity),
      (∀ pattern, settings.filter (·.1 = pattern) = settings'.filter (·.1 = pattern)) →
      (rules.setAll settings).severity code = (rules.setAll settings').severity code) ∧
    ∀ pattern severity,
      (Severity.Leads rules.patterns.get? code pattern →
        (rules.set pattern severity).severity code = severity) ∧
      (¬Severity.Leads rules.patterns.get? code pattern →
        (rules.set pattern severity).severity code = rules.severity code) :=
  ⟨fun _ => severity_eq_iff, fun _ horder => (severity_eq_iff.mpr (resolves_searched horder code)).symm,
    fun _ _ hsettings => by rw [setAll_eq hsettings],
    fun _ severity => ⟨(severity_set_of_leads · severity), (severity_set_of_not_leads · severity)⟩⟩

/-- Behind `D10` a rule for `D1` says nothing about `D100`, and one for `D100` itself counts. -/
theorem severity_by_longest_nested :
    let rules := empty.setAll [("", .hint), ("D", .warning), ("D10", .off)]
    let order := rules.patterns.entries.reverse
    let settings : List (String × Severity) := [("D", .info), ("D1", .error)]
    (order.Perm rules.patterns.entries ∧
      rules.searched order "D100" = rules.severity "D100") ∧
    ((∀ pattern, settings.filter (·.1 = pattern) = settings.reverse.filter (·.1 = pattern)) ∧
      (rules.setAll settings).severity "D100" = (rules.setAll settings.reverse).severity "D100") ∧
    (¬Severity.Leads rules.patterns.get? "D100" "D1" ∧
      (rules.set "D1" .info).severity "D100" = rules.severity "D100") ∧
    (Severity.Leads rules.patterns.get? "D100" "D100" ∧
      (rules.set "D100" .info).severity "D100" = .info) := by
  intro rules order settings
  obtain ⟨-, hsearched, hsettings, hset⟩ := severity_by_longest rules "D100"
  have horder : order.Perm rules.patterns.entries := List.reverse_perm _
  have hsame (pattern : String) :
      settings.filter (·.1 = pattern) = settings.reverse.filter (·.1 = pattern) := by
    by_cases h : "D" = pattern
    · subst h
      rfl
    · simp [settings, List.filter_cons, h]
  have hbehind : ¬Severity.Leads rules.patterns.get? "D100" "D1" := fun h =>
    absurd (h.longest "D10" rfl (by decide)) (by decide)
  have hself : Severity.Leads rules.patterns.get? "D100" "D100" := Severity.leads_self
  exact ⟨⟨horder, hsearched order horder⟩, ⟨hsame, hsettings _ _ hsame⟩,
    ⟨hbehind, (hset "D1" .info).2 hbehind⟩, ⟨hself, (hset "D100" .info).1 hself⟩⟩

end SeverityRules

end StyleTemplate
