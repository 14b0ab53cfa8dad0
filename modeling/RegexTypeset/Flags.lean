/-! # Pattern flags

A set of flags is a word of 32 bits, of which eight have a meaning. Bits without a
meaning are kept as they are. Flags are named by a letter inside a pattern and by a
word on the command line, and are listed as references to their documentation.
-/
namespace RegexTypeset

@[ext]
structure Flags where
  bits : UInt32
deriving DecidableEq, Repr

namespace Flags

def empty : Flags := ⟨0⟩
def ignoreCase : Flags := ⟨2⟩
def locale : Flags := ⟨4⟩
def multiline : Flags := ⟨8⟩
def dotAll : Flags := ⟨16⟩
def unicode : Flags := ⟨32⟩
def verbose : Flags := ⟨64⟩
def debug : Flags := ⟨128⟩
def ascii : Flags := ⟨256⟩

instance : EmptyCollection Flags := ⟨empty⟩
instance : Inhabited Flags := ⟨empty⟩
instance : Union Flags := ⟨fun f g => ⟨f.bits ||| g.bits⟩⟩
instance : SDiff Flags := ⟨fun f g => ⟨f.bits &&& ~~~g.bits⟩⟩

def has (f g : Flags) : Bool := f.bits &&& g.bits == g.bits

def isEmpty (f : Flags) : Bool := f.bits == 0

def ofLetter? : Char → Option Flags
  | 'a' => some ascii
  | 'i' => some ignoreCase
  | 'L' => some locale
  | 'm' => some multiline
  | 's' => some dotAll
  | 'u' => some unicode
  | 'x' => some verbose
  | _ => none

def ofName? (name : String) : Option Flags :=
  match name.toUpper with
  | "A" | "ASCII" => some ascii
  | "DEBUG" => some debug
  | "I" | "IGNORECASE" => some ignoreCase
  | "L" | "LOCALE" => some locale
  | "M" | "MULTILINE" => some multiline
  | "S" | "DOTALL" => some dotAll
  | "U" | "UNICODE" => some unicode
  | "X" | "VERBOSE" => some verbose
  | _ => none

def listed : List (Flags × String) :=
  [(ascii, "ASCII"), (debug, "DEBUG"), (ignoreCase, "IGNORECASE"), (locale, "LOCALE"),
   (multiline, "MULTILINE"), (dotAll, "DOTALL"), (verbose, "VERBOSE")]

def references (f : Flags) : String :=
  String.intercalate " ``|`` " <|
    listed.filterMap fun entry =>
      if f.has entry.1 then some (":py:data:`re." ++ entry.2 ++ "`") else none

/-- The references without those flags that have no effect on what a pattern matches. -/
def documented (f : Flags) : String :=
  references ((f \ debug) \ verbose)

end Flags

end RegexTypeset
