import Knitting.CommandLine.Session

set_option autoImplicit false

/-! # The program

The command line on the files of the system. The filter for the log is taken from the
environment. -/

namespace Knitting.CommandLine

/-- Why the system refuses something, as a reason of the command line. -/
def Refusal.ofSystem : IO.Error → Refusal
  | .alreadyExists _ code text => .system text code.toNat
  | .otherError code text => .system text code.toNat
  | .resourceBusy code text => .system text code.toNat
  | .resourceVanished code text => .system text code.toNat
  | .unsupportedOperation code text => .system text code.toNat
  | .hardwareFault code text => .system text code.toNat
  | .unsatisfiedConstraints code text => .system text code.toNat
  | .illegalOperation code text => .system text code.toNat
  | .protocolError code text => .system text code.toNat
  | .timeExpired code text => .system text code.toNat
  | .interrupted _ code text => .system text code.toNat
  | .noFileOrDirectory .. => .notFound
  | .invalidArgument _ code text => .system text code.toNat
  | .permissionDenied _ code text => .system text code.toNat
  | .resourceExhausted _ code text => .system text code.toNat
  | .inappropriateType _ code text => .system text code.toNat
  | .noSuchThing _ code text => .system text code.toNat
  | .unexpectedEof => .system "Unexpected end of file" 0
  | .userError text => .system text 0

def systemFiles : Files IO where
  read path := do
    match ← (IO.FS.readBinFile path).toBaseIO with
    | .ok bytes => return .ok bytes
    | .error e => return .error (.ofSystem e)
  write path text := do
    match ← (IO.FS.writeFile path text).toBaseIO with
    | .ok () => return .ok ()
    | .error e => return .error (.ofSystem e)

end Knitting.CommandLine

open Knitting.CommandLine in
def main (args : List String) : IO UInt32 := do
  let report ← run systemFiles args (← IO.getEnv "RUST_LOG")
  IO.print report.stdout
  for line in report.stderr do
    IO.eprintln line
  return report.exit.toUInt32
