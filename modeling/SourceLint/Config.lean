import SourceLint.Binding
import SourceLint.Schema.Builtin

/-! # The configuration

The typed form of a configuration document, and what it amounts to. Every part
keeps the position it was read from. A setting that is missing, or whose literal
does not make sense, gives way to its default.
-/

namespace SourceLint

/-- What every section of a rule may say. -/
structure RuleSettings where
  enabled : Option Bool := none
  severity : Option Severity := none
  deriving Repr, DecidableEq, Inhabited

/-- A glob that takes something out of the analysis. -/
structure ExcludeEntry where
  pattern : String
  position : Option Position := none
  deriving Repr, DecidableEq, Inhabited

structure AnalyzerSection where
  parallelism : Option Int := none
  excludes : List ExcludeEntry := []
  position : Option Position := none
  deriving Repr, DecidableEq, Inhabited

/-- The section of the line rule, its bounds still literal. -/
structure LongLineSection where
  settings : RuleSettings := {}
  maxLineLength : Option String := none
  tabWidth : Option String := none
  position : Option Position := none
  deriving Repr, DecidableEq, Inhabited

/-- The section of the function rule. -/
structure UnusedFunctionSection where
  settings : RuleSettings := {}
  includePublic : Option Bool := none
  excludes : List ExcludeEntry := []
  position : Option Position := none
  deriving Repr, DecidableEq, Inhabited

/-- A configuration; the default one says nothing. -/
structure Config where
  failOn : Option Severity := none
  analyzer : Option AnalyzerSection := none
  longLine : Option LongLineSection := none
  unusedFunction : Option UnusedFunctionSection := none
  position : Option Position := none
  deriving Repr, DecidableEq, Inhabited

def longLineRule : String := "long-line"

def unusedFunctionRule : String := "unused-function"

/-- The longest line that is allowed by default. -/
def defaultMaxLineLength : Nat := 120

/-- The columns that a tab takes by default. -/
def defaultTabWidth : Nat := 4

/-- The largest number of workers. -/
def maxParallelism : Nat := 256

namespace RuleSettings

def ofBound (b : Bound) : RuleSettings :=
  ⟨b.boolean? "enabled", b.severity? "severity"⟩

/-- Rules run unless they are switched off. -/
def isEnabled (s : RuleSettings) : Bool :=
  s.enabled.getD true

end RuleSettings

/-- The entry of a bound element whose glob is the value of `field`. -/
def ExcludeEntry.ofBound (field : String) (b : Bound) : ExcludeEntry :=
  ⟨(b.text? field).getD "", b.position⟩

def AnalyzerSection.ofBound (b : Bound) : AnalyzerSection :=
  ⟨b.integer? "parallelism",
    (b.childrenNamed Schema.analyzerExclude.name).map (ExcludeEntry.ofBound "pattern"),
    b.position⟩

namespace LongLineSection

def ofBound (b : Bound) : LongLineSection :=
  ⟨.ofBound b, b.text? "maxLineLength", b.text? "tabWidth", b.position⟩

def effectiveMaxLineLength (s : LongLineSection) : Nat :=
  (s.maxLineLength.bind Text.parsePositive).getD defaultMaxLineLength

def effectiveTabWidth (s : LongLineSection) : Nat :=
  (s.tabWidth.bind Text.parsePositive).getD defaultTabWidth

end LongLineSection

def UnusedFunctionSection.ofBound (b : Bound) : UnusedFunctionSection :=
  ⟨.ofBound b, b.boolean? "includePublic",
    (b.childrenNamed Schema.unusedFunctionExclude.name).map (ExcludeEntry.ofBound "name"),
    b.position⟩

namespace Config

def ofBound (b : Bound) : Config :=
  ⟨b.severity? "failOn",
    (b.child? Schema.analyzer.name).map AnalyzerSection.ofBound,
    (b.child? Schema.longLine.name).map LongLineSection.ofBound,
    (b.child? Schema.unusedFunction.name).map UnusedFunctionSection.ofBound,
    b.position⟩

/-- The configuration that a root element spells. -/
def bind (root : Markup.Element) : Except Binding.Error Config :=
  (Binding.bind Schema.config root).map ofBound

/-- The severity from which on a run fails. -/
def failThreshold (c : Config) : Severity :=
  c.failOn.getD .error

/-- What the section of a rule says, if there is one. -/
def ruleSettings? (c : Config) (rule : String) : Option RuleSettings :=
  if rule = longLineRule then c.longLine.map (·.settings)
  else if rule = unusedFunctionRule then c.unusedFunction.map (·.settings)
  else none

/-- Rules run unless their section switches them off. -/
def isRuleEnabled (c : Config) (rule : String) : Bool :=
  ((c.ruleSettings? rule).map RuleSettings.isEnabled).getD true

/-- The severity that the section of a rule gives its findings. -/
def ruleSeverity? (c : Config) (rule : String) : Option Severity :=
  (c.ruleSettings? rule).bind (·.severity)

/-- A number of workers that makes sense. -/
def validParallelism? (n : Int) : Option Nat :=
  if 1 ≤ n ∧ n ≤ maxParallelism then some n.toNat else none

/-- The number of workers, if one that makes sense is given. -/
def parallelism? (c : Config) : Option Nat :=
  (c.analyzer.bind (·.parallelism)).bind validParallelism?

/-- The path globs that take files out of the analysis. -/
def excludePatterns (c : Config) : List String :=
  (c.analyzer.map fun s => s.excludes.map (·.pattern)).getD []

/-- The name globs that take functions out of the report. -/
def functionExcludes (c : Config) : List String :=
  (c.unusedFunction.map fun s => s.excludes.map (·.pattern)).getD []

/-- Functions visible outside their module are reported as well. -/
def includesPublic (c : Config) : Bool :=
  (c.unusedFunction.bind (·.includePublic)).getD false

def maxLineLength (c : Config) : Nat :=
  (c.longLine.map LongLineSection.effectiveMaxLineLength).getD defaultMaxLineLength

def tabWidth (c : Config) : Nat :=
  (c.longLine.map LongLineSection.effectiveTabWidth).getD defaultTabWidth

end Config

end SourceLint
