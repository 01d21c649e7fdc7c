import Telemetry.Series.Rejection
import Telemetry.Text.Fingerprint

/-!
Descriptors of exported metrics: a name, a help text, constant labels and the names of variable
labels.

Two descriptors count as the same series family when their identities agree, the fingerprints of
the name and the constant values. All descriptors of one name have to share their dimensions, the
fingerprint of the help text and the label names.
-/

namespace Telemetry

namespace Series

/-- Constant labels are kept in order of their names. -/
structure Descriptor where
  name : String
  help : String
  constants : List (String × String)
  labelNames : List String
deriving DecidableEq

def isLetter (c : Char) : Bool := ('a' ≤ c && c ≤ 'z') || ('A' ≤ c && c ≤ 'Z') || c == '_'

def isDecimalDigit (c : Char) : Bool := '0' ≤ c && c ≤ '9'

/-- An identifier: one of `letter`, then any of `letter` and digits. -/
def isIdentifier (letter : Char → Bool) (text : String) : Bool :=
  match text.toList with
  | [] => false
  | c :: rest => letter c && rest.all fun c => letter c || isDecimalDigit c

def isMetricName (text : String) : Bool := isIdentifier (fun c => isLetter c || c == ':') text

def isLabelName (text : String) : Bool := isIdentifier isLetter text

/-- The first name that is no label name, or that an earlier one repeats. -/
def checkLabels (earlier : List String) : List String → Option Rejection
  | [] => none
  | name :: rest =>
    if !isLabelName name then some (.labelName name)
    else if earlier.contains name then some (.repeatedLabel name)
    else checkLabels (name :: earlier) rest

namespace Descriptor

/-- Describes a metric, or says what is wrong: the help, then the name, then the labels in order. -/
def make? (name help : String) (constants : List (String × String)) (labelNames : List String) :
    Except Rejection Descriptor :=
  if help.isEmpty then .error .emptyHelp
  else if !isMetricName name then .error (.metricName name)
  else match checkLabels [] labelNames with
    | some r => .error r
    | none =>
      .ok ⟨name, help, constants.mergeSort (fun a b => a.1 ≤ b.1), labelNames⟩

/-- Stands for the name and the constant values, these in order of their labels. -/
def identity (d : Descriptor) : Fingerprint := .ofTexts (d.name :: d.constants.map (·.2))

/-- The label names in order. Names of variable labels carry a mark that no label name has. -/
def markedNames (d : Descriptor) : List String :=
  (d.constants.map (·.1) ++ d.labelNames.map ("$" ++ ·)).mergeSort (· ≤ ·)

/-- Stands for the help text and the set of label names. -/
def dimensions (d : Descriptor) : Fingerprint := .ofTexts (d.help :: d.markedNames)

end Descriptor

end Series

end Telemetry
