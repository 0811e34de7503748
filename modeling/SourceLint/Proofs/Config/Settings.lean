import SourceLint.Config.Validation

/-! # Settings of one rule

The section of a rule says whether the rule runs and how bad its findings are. Neither has a part in
anything else that a configuration says, so other settings of one rule leave the other rule and all
numbers and patterns as they are, and they are never an issue.
-/

namespace SourceLint.Config

variable {c c' : Config} {rule other : String} {f : RuleSettings → RuleSettings}

/-- The configuration with other settings of a rule. A rule that has no section gets one. -/
def altered (rule : String) (f : RuleSettings → RuleSettings) (c : Config) : Config :=
  if rule = longLineRule then
    let s := c.longLine.getD {}
    { c with longLine := some { s with settings := f s.settings } }
  else if rule = unusedFunctionRule then
    let s := c.unusedFunction.getD {}
    { c with unusedFunction := some { s with settings := f s.settings } }
  else c

/-- The configuration with a rule switched off. -/
def switchedOff (rule : String) (c : Config) : Config :=
  c.altered rule fun s => { s with enabled := some false }

/-- The configuration with a severity for the findings of a rule, or without one. -/
def withSeverity (rule : String) (severity : Option Severity) (c : Config) : Config :=
  c.altered rule fun s => { s with severity }

/-- The two say the same but for the settings of rules. -/
structure SameButSettings (c c' : Config) : Prop where
  failOn : c'.failOn = c.failOn
  analyzer : c'.analyzer = c.analyzer
  maxLineLength : c'.maxLineLength = c.maxLineLength
  tabWidth : c'.tabWidth = c.tabWidth
  includesPublic : c'.includesPublic = c.includesPublic
  functionExcludes : c'.functionExcludes = c.functionExcludes
  issues : c'.issues = c.issues

theorem SameButSettings.failThreshold (same : SameButSettings c c') :
    c'.failThreshold = c.failThreshold := by
  rw [Config.failThreshold, same.failOn, Config.failThreshold]

theorem SameButSettings.excludePatterns (same : SameButSettings c c') :
    c'.excludePatterns = c.excludePatterns := by
  rw [Config.excludePatterns, same.analyzer, Config.excludePatterns]

theorem SameButSettings.validate (same : SameButSettings c c') : c'.validate = c.validate := by
  rw [Config.validate, same.issues, Config.validate]

theorem sameButSettings_altered (rule : String) (f : RuleSettings → RuleSettings) (c : Config) :
    SameButSettings c (c.altered rule f) := by
  rw [altered]
  split
  · -- A section that was not there says nothing but its settings.
    cases section_ : c.longLine <;> constructor <;>
      simp only [Config.maxLineLength, Config.tabWidth, Config.issues, section_] <;> rfl
  · split
    · cases section_ : c.unusedFunction <;> constructor <;>
        simp only [Config.includesPublic, Config.functionExcludes, Config.issues, section_] <;> rfl
    · exact ⟨rfl, rfl, rfl, rfl, rfl, rfl, rfl⟩

/-- What the section of a rule says then. -/
theorem ruleSettings?_altered (known : rule = longLineRule ∨ rule = unusedFunctionRule) :
    (c.altered rule f).ruleSettings? rule = some (f ((c.ruleSettings? rule).getD {})) := by
  have differ : unusedFunctionRule ≠ longLineRule := by decide
  rcases known with rfl | rfl
  · rw [altered, if_pos rfl, ruleSettings?, ruleSettings?, if_pos rfl, if_pos rfl]
    cases c.longLine <;> rfl
  · rw [altered, if_neg differ, if_pos rfl, ruleSettings?, ruleSettings?, if_neg differ,
      if_neg differ, if_pos rfl, if_pos rfl]
    cases c.unusedFunction <;> rfl

theorem ruleSettings?_altered_of_ne (differ : other ≠ rule) :
    (c.altered rule f).ruleSettings? other = c.ruleSettings? other := by
  rw [altered]
  split
  · rename_i line
    subst line
    rw [ruleSettings?, ruleSettings?, if_neg differ, if_neg differ]
  · split
    · rename_i function
      subst function
      rw [ruleSettings?, ruleSettings?, if_neg differ, if_neg differ]
    · rfl

section Known

variable (known : other = longLineRule ∨ other = unusedFunctionRule)

include known

theorem isRuleEnabled_altered (keeps : ∀ s, (f s).enabled = s.enabled) :
    (c.altered rule f).isRuleEnabled other = c.isRuleEnabled other := by
  by_cases same : other = rule
  · subst same
    rw [isRuleEnabled, isRuleEnabled, ruleSettings?_altered known, Option.map_some,
      RuleSettings.isEnabled, keeps]
    cases c.ruleSettings? other <;> rfl
  · rw [isRuleEnabled, ruleSettings?_altered_of_ne same, isRuleEnabled]

theorem ruleSeverity?_altered (keeps : ∀ s, (f s).severity = s.severity) :
    (c.altered rule f).ruleSeverity? other = c.ruleSeverity? other := by
  by_cases same : other = rule
  · subst same
    rw [ruleSeverity?, ruleSeverity?, ruleSettings?_altered known, Option.bind_some, keeps]
    cases c.ruleSettings? other <;> rfl
  · rw [ruleSeverity?, ruleSettings?_altered_of_ne same, ruleSeverity?]

/-- A rule that is switched off does not run, and the other one is not concerned. -/
theorem isRuleEnabled_switchedOff :
    (c.switchedOff rule).isRuleEnabled other = (c.isRuleEnabled other && other != rule) := by
  by_cases same : other = rule
  · subst same
    rw [isRuleEnabled, switchedOff, ruleSettings?_altered known, bne_self_eq_false, Bool.and_false]
    rfl
  · rw [isRuleEnabled, switchedOff, ruleSettings?_altered_of_ne same, bne_iff_ne.mpr same,
      Bool.and_true, isRuleEnabled]

theorem ruleSeverity?_switchedOff :
    (c.switchedOff rule).ruleSeverity? other = c.ruleSeverity? other :=
  ruleSeverity?_altered known fun _ => rfl

theorem isRuleEnabled_withSeverity {severity : Option Severity} :
    (c.withSeverity rule severity).isRuleEnabled other = c.isRuleEnabled other :=
  isRuleEnabled_altered known fun _ => rfl

/-- A severity that is given to a rule counts for that rule alone. -/
theorem ruleSeverity?_withSeverity {severity : Option Severity} :
    (c.withSeverity rule severity).ruleSeverity? other =
      if other = rule then severity else c.ruleSeverity? other := by
  rw [ruleSeverity?, withSeverity]
  split
  · rename_i same
    subst same
    rw [ruleSettings?_altered known]
    rfl
  · rename_i differ
    rw [ruleSettings?_altered_of_ne differ, ruleSeverity?]

end Known

end SourceLint.Config
