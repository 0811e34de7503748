/-! # The vocabulary of the command line

Verbs say what to do, options how. An option has a long name, most have a letter as well,
and some take a value. Two options go with every verb and may also stand before it.
-/

namespace SourceLint.CommandLine

/-- An option. -/
inductive Switch where
  | verbose
  | config
  | format
  | rules
  | exclude
  | jobs
  | force
  deriving Repr, DecidableEq, BEq

namespace Switch

/-- The name that follows two hyphens. -/
def name : Switch → String
  | verbose => "verbose"
  | config => "config"
  | format => "format"
  | rules => "rules"
  | exclude => "exclude"
  | jobs => "jobs"
  | force => "force"

/-- The letter that follows one hyphen. -/
def letter? : Switch → Option Char
  | verbose => some 'v'
  | config => some 'c'
  | format => some 'f'
  | exclude => some 'e'
  | jobs => some 'j'
  | rules | force => none

def takesValue : Switch → Bool
  | verbose | force => false
  | config | format | rules | exclude | jobs => true

/-- The option may be given more than once. -/
def repeats (s : Switch) : Bool :=
  s = exclude

/-- The options that go with every verb. -/
def shared : List Switch := [verbose, config]

end Switch

/-- What to do. -/
inductive Verb where
  | check
  | checkConfig
  | listRules
  | init
  deriving Repr, DecidableEq, BEq

namespace Verb

def name : Verb → String
  | check => "check"
  | checkConfig => "check-config"
  | listRules => "list-rules"
  | init => "init"

def all : List Verb := [check, checkConfig, listRules, init]

def named? (name : String) : Option Verb :=
  all.find? (·.name = name)

/-- The options that go with a verb. -/
def switches : Verb → List Switch
  | check => .format :: .rules :: .exclude :: .jobs :: Switch.shared
  | init => .force :: Switch.shared
  | checkConfig | listRules => Switch.shared

def takesPath : Verb → Bool
  | check | checkConfig => true
  | listRules | init => false

end Verb

/-- How a report is printed. -/
inductive Format where
  | text
  | json
  | compact
  deriving Repr, DecidableEq, BEq

def Format.named? (name : String) : Option Format :=
  if name = "text" then some .text
  else if name = "json" then some .json
  else if name = "compact" then some .compact
  else none

end SourceLint.CommandLine
