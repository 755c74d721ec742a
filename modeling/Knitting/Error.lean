import Knitting.Needle.Basic
import Knitting.Number.Layout
import Knitting.Pass.Kind

set_option autoImplicit false

/-! # Errors and warnings

An error ends a run; a warning means that an instruction was skipped or only partly carried out,
and the run goes on. Both are kept as causes. Their wording is in `Error.message` and
`Warning.message` alone. -/

namespace Knitting

/-- What makes a pass impossible to carry out. -/
inductive PassFlaw where
  | transferWithYarn (kind : PassKind)
  | actionWithoutYarn
  /-- The hook brings in what the gripper does not hand it. -/
  | hookInAlone
  /-- The hook takes out what the gripper does not take from it. -/
  | hookOutAlone
  deriving DecidableEq, Repr

def PassFlaw.message : PassFlaw → String
  | transferWithYarn kind => kind.name ++ " pass cannot carry yarn"
  | actionWithoutYarn => "hook or gripper action on a pass without carriers"
  | hookInAlone => "hook in without gripper in"
  | hookOutAlone => "hook out without gripper out"

/-- What an instruction can lack. -/
inductive Argument where
  | direction
  | needle
  | source
  | target
  deriving DecidableEq, Repr

def Argument.name : Argument → String
  | direction => "direction"
  | needle => "needle"
  | source => "from needle"
  | target => "to needle"

/-- What ends a run. -/
inductive Error where
  /-- The first line is not the magic line. -/
  | missingMagic
  | invalidNeedle (token : String)
  | invalidDirection (token : String)
  | missingArgument (op : String) (what : Argument)
  | invalidRacking (token : String)
  /-- A racking is neither a whole number nor a quarter above one. -/
  | fractionalRacking (racking : Float)
  | noCarriers (op : String)
  | alreadyActive (name : String)
  | inactiveCarrier (name : String)
  | neverStitched (name : String)
  | undeclaredCarrier (name : String)
  | hookEmpty (requested : List String)
  | hookMismatch (requested held : List String)
  | hookBusy (requested held : List String)
  /-- The group that stitches is not the group that was brought in. -/
  | firstUseMismatch (used pending : List String)
  /-- Two needles do not face each other. -/
  | misaligned (source target : Needle) (racking : Float)
  | slotOutOfRange (needle : Needle) (racking : Float)
  | sliderToSlider (source target : Needle)
  | sameSideTransfer (source target : Needle)
  | splitFromSlider (needle : Needle)
  | stitchOnSlider (needle : Needle)
  | missWithoutCarriers
  | invalidPass (flaw : PassFlaw)
  | unknownSlotCode (code : Nat)
  /-- The receiver of the coordinates took only part of them. -/
  | shortWrite
  /-- An error with the number of the line that caused it. -/
  | atLine (number : Nat) (cause : Error)
  deriving DecidableEq, Repr

namespace Error

def groupText (names : List String) : String := " ".intercalate names

def quoted (text : String) : String := "'" ++ text ++ "'"

def message : Error → String
  | missingMagic => "file does not start with the knitout magic string ';!knitout-N'"
  | invalidNeedle token => "invalid needle specification " ++ quoted token
  | invalidDirection token => "invalid direction " ++ quoted token ++ ", expected '+' or '-'"
  | missingArgument op what => quoted op ++ " is missing its " ++ what.name
  | invalidRacking token => "racking must be a number, got " ++ quoted token
  | fractionalRacking racking =>
    "racking must be an integer or an integer+0.25, got " ++ Number.floatText racking
  | noCarriers op => quoted op ++ " needs at least one carrier"
  | alreadyActive name => "can't bring in an already active carrier " ++ quoted name
  | inactiveCarrier name => "carrier " ++ quoted name ++ " is not active"
  | neverStitched name => "can't bring out carrier " ++ quoted name ++ ", it hasn't stitched yet"
  | undeclaredCarrier name =>
    "carrier " ++ quoted name ++ " is not declared by the ;;Carriers: header"
  | hookEmpty requested =>
    "can't releasehook on [" ++ groupText requested ++ "], the hook is empty"
  | hookMismatch requested held =>
    "can't releasehook on [" ++ groupText requested ++ "], the hook holds [" ++ groupText held
      ++ "]"
  | hookBusy requested held =>
    "can't use the hook for [" ++ groupText requested ++ "], it is holding [" ++ groupText held
      ++ "]"
  | firstUseMismatch used pending =>
    "first use of carriers [" ++ groupText used ++ "] doesn't match the pending in of ["
      ++ groupText pending ++ "]"
  | misaligned source target racking =>
    "needles " ++ quoted source.text ++ " and " ++ quoted target.text
      ++ " are not aligned at racking " ++ Number.floatText racking
  | slotOutOfRange needle racking =>
    "needle " ++ quoted needle.text ++ " has no machine slot at racking "
      ++ Number.floatText racking
  | sliderToSlider source target =>
    "cannot move loops from slider " ++ quoted source.text ++ " to slider " ++ quoted target.text
  | sameSideTransfer source target =>
    "cannot transfer between " ++ quoted source.text ++ " and " ++ quoted target.text
      ++ " on the same bed side"
  | splitFromSlider needle => "cannot split from slider " ++ quoted needle.text
  | stitchOnSlider needle => "cannot stitch on slider needle " ++ quoted needle.text
  | missWithoutCarriers => "it makes no sense to miss with no carriers"
  | invalidPass flaw => "invalid pass: " ++ flaw.message
  | unknownSlotCode code => "unknown slot operation code " ++ toString code
  | shortWrite => "io error: failed to write whole buffer"
  | atLine number cause => "line " ++ toString number ++ ": " ++ cause.message

/-- The error with a line number, unless it has one. -/
def locate (number : Nat) : Error → Error
  | atLine n cause => atLine n cause
  | e => atLine number e

def root : Error → Error
  | atLine _ cause => cause.root
  | e => e

/-- The error followed by the errors that it only adds a line number to. -/
def chain : Error → List Error
  | atLine n cause => atLine n cause :: cause.chain
  | e => [e]

end Error

/-- What lets a run go on although an instruction was skipped or only partly carried out. -/
inductive Warning where
  | unsupportedOperation (op : String)
  | extensionOperation (op : String)
  | newerVersion (version understood : Nat)
  | emptyTransfer (needle : Needle)
  | emptyDrop (needle : Needle)
  | repeatedCarrierHeader
  deriving DecidableEq, Repr

namespace Warning

open Error (quoted)

def message : Warning → String
  | unsupportedOperation op => "unsupported operation " ++ quoted op ++ ", ignored"
  | extensionOperation op => "unsupported extension operation " ++ quoted op ++ ", ignored"
  | newerVersion version understood =>
    "file is version " ++ toString version ++ ", but only versions up to " ++ toString understood
      ++ " are understood"
  | emptyTransfer needle =>
    "transfer from " ++ quoted needle.text ++ " which holds no loops, ignored"
  | emptyDrop needle => "drop on " ++ quoted needle.text ++ " which holds no loops, ignored"
  | repeatedCarrierHeader => "carrier header repeated, keeping the first declaration"

end Warning

/-- A warning with the number of the line that caused it. -/
structure LineWarning where
  line : Nat
  warning : Warning
  deriving DecidableEq, Repr

end Knitting
