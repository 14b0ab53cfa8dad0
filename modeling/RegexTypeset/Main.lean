import RegexTypeset.CommandLine.Arguments
import RegexTypeset.CommandLine.Run

/-! # The command

Renders the patterns given as arguments, or the lines of the standard input. All
decisions are made by the pure functions of the library; this module reads and prints.
-/
namespace RegexTypeset

def usage : String :=
  "Usage: regextypeset [OPTIONS] [PATTERNS]...\n\n" ++
  "Without patterns, the lines of the standard input are rendered.\n\n" ++
  "  -t, --target NAME     plain, html, latex or terminal (default)\n" ++
  "  -f, --flag FLAG       read the patterns with a flag; may be repeated\n" ++
  "      --show-flags      list the flags of a pattern after its rendering\n" ++
  "      --strict          fail on constructs that have no rendering\n" ++
  "      --color WHEN      always, never or auto (default)\n" ++
  "      --log-level NAME  off, error, warn (default), info, debug or trace\n" ++
  "  -h, --help            print this text\n" ++
  "  -V, --version         print the version\n"

def logLine (e : Event) : String :=
  e.level.name ++ " " ++ e.message ++
    String.join (e.fields.map fun (name, text) => " " ++ name ++ "=" ++ Quoted.string text) ++ "\n"

partial def readAll (stream : IO.FS.Stream) (read : ByteArray) : IO ByteArray := do
  let chunk ← stream.read 65536
  if chunk.isEmpty then return read else readAll stream (read ++ chunk)

def runConfig (config : Config) : IO UInt32 := do
  let stdout ← IO.getStdout
  let stderr ← IO.getStderr
  let input ← if config.patterns.isEmpty then readAll (← IO.getStdin) .empty else pure .empty
  let (console, result) := config.run (← stdout.isTty) input (.start none none)
  let filter := config.logFilter.getD .warn
  for event in console.log do
    if filter.admits event.level then stderr.putStr (logLine event)
  stdout.putStr console.out.written
  stdout.flush
  stderr.putStr console.err.written
  match result with
  | .ok code => return UInt32.ofNat code
  | .error e =>
    stderr.putStr ("error: " ++ e.message ++ "\n")
    return 2

end RegexTypeset

open RegexTypeset in
def main (arguments : List String) : IO UInt32 := do
  match Arguments.parse arguments with
  | .error .helpRequested =>
    IO.print usage
    return 0
  | .error .versionRequested =>
    IO.println "regextypeset 0.1.0"
    return 0
  | .error e =>
    IO.eprintln ("error: " ++ e.message)
    return 2
  | .ok config => runConfig config
