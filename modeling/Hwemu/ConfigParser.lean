import Hwemu.Python
import Hwemu.Lib.Dict

/-!
# Python's configparser

What `hwectl` uses of the module: a `ConfigParser` with `=` as its only delimiter, that reads one file
and then gives out the options of each section in order, with the interpolation of their values.
-/

namespace Hwemu

def defaultSect : Str := "DEFAULT".toList

/-! ### Reading a file -/

/-- The local variables of `_read`. The value of an option is the list of its lines; the empty
`optname` stands for `None`, and `bad` for an exception that is raised at the end of the file. -/
structure IniReader where
  sections : Dict Str (Dict Str (List Str))
  defaults : Dict Str (List Str)
  sectname : Option Str
  optname : Str
  indentLevel : Nat
  bad : Bool

namespace IniReader

def start : IniReader where
  sections := .empty
  defaults := .empty
  sectname := none
  optname := []
  indentLevel := 0
  bad := false

def cursect (r : IniReader) : Option (Dict Str (List Str)) :=
  r.sectname.bind fun sectname =>
    if sectname = defaultSect then some r.defaults else r.sections.get? sectname

def setCursect (r : IniReader) (sectname : Str) (options : Dict Str (List Str)) : IniReader :=
  if sectname = defaultSect then { r with defaults := options }
  else { r with sections := r.sections.set sectname options }

/-- `cursect[optname].append(line)`, when there is a current option. -/
def appendLine (r : IniReader) (line : Str) : IniReader :=
  match r.sectname, r.cursect with
  | some sectname, some cursect =>
      if r.optname = [] then r
      else
        match cursect.get? r.optname with
        | some lines => r.setCursect sectname (cursect.set r.optname (lines ++ [line]))
        | none => r
  | _, _ => r

end IniReader

/-- `\[(?P<header>.+)\]` at the start of a line: the header ends at the last bracket. -/
def sectHeader : Str → Option Str
  | '[' :: value =>
      match value.reverse.dropWhile fun c => c ≠ ']' with
      | _ :: c :: header => some (c :: header).reverse
      | _ => none
  | _ => none

/-- `(?P<option>.*?)\s*=\s*(?P<value>.*)$`: the option ends at the first delimiter. -/
def optionLine (value : Str) : Option (Str × Str) :=
  match value.dropWhile fun c => c ≠ '=' with
  | _ :: optval => some (rstrip (value.takeWhile fun c => c ≠ '='), optval.dropWhile isPySpace)
  | [] => none

/-- A line that is neither empty nor a comment nor a continuation. -/
def IniReader.readHeading (py : Python) (r : IniReader) (value : Str) : Except PyError IniReader :=
  match sectHeader value with
  | some header =>
      if header ∈ r.sections.keys then .error (.duplicateSection header)
      else if header = defaultSect then .ok { r with sectname := some header, optname := [] }
      else .ok { r with
        sections := r.sections.set header .empty
        sectname := some header
        optname := [] }
  | none =>
      match r.sectname, r.cursect with
      | some sectname, some cursect =>
          match optionLine value with
          | none => .ok { r with bad := true }
          | some (option, optval) =>
              let optname := py.lower (rstrip option)
              if optname ∈ cursect.keys then .error (.duplicateOption sectname optname)
              else
                let r := { r with optname := optname, bad := r.bad || option = [] }
                .ok (r.setCursect sectname (cursect.set optname [strip optval]))
      | _, _ => .error .missingSectionHeader

/-- The body of the loop of `_read`. -/
def IniReader.readLine (py : Python) (r : IniReader) (line : Str) : Except PyError IniReader :=
  let value := strip line
  if startsWith ['#'] value || startsWith [';'] value then .ok r
  else if value = [] then .ok (r.appendLine [])
  else
    let curIndentLevel := (line.takeWhile isPySpace).length
    if r.cursect.isSome ∧ r.optname ≠ [] ∧ r.indentLevel < curIndentLevel then .ok (r.appendLine value)
    else IniReader.readHeading py { r with indentLevel := curIndentLevel } value

/-- The lines of a text file, each with its newline. -/
def pyLines : Str → List Str
  | [] => []
  | c :: s =>
      if c = '\n' then [c] :: pyLines s
      else
        match pyLines s with
        | [] => [[c]]
        | line :: lines => (c :: line) :: lines

/-- `_join_multiline_values` on one value. -/
def joinLines (lines : List Str) : Str := rstrip (['\n'].intercalate lines)

structure Ini where
  sections : Dict Str (Dict Str Str)
  defaults : Dict Str Str
  deriving DecidableEq

def IniReader.finish (r : IniReader) : Except PyError Ini :=
  if r.bad then .error .parsing
  else .ok {
    sections := r.sections.mapValues fun options => options.mapValues joinLines
    defaults := r.defaults.mapValues joinLines }

def readIni (py : Python) (data : List UInt8) : Except PyError Ini := do
  let text ← decodeUtf8 data
  let r ← (pyLines (universalNewlines text)).foldlM (IniReader.readLine py) .start
  r.finish

/-! ### Interpolation -/

/-- What a value is made of: `%%` stands for a character like any other, `%(name)s` for the value of
another option, and any other use of `%` is an error. -/
inductive IniPart where
  | char (c : Char)
  | ref (name : Str)
  | bad

/-- The parts of a value, from the inside of `%(` on when there is a name being read. -/
def iniParts : Option Str → Str → List IniPart
  | none, '%' :: '%' :: s => .char '%' :: iniParts none s
  | none, '%' :: '(' :: s => iniParts (some []) s
  | none, '%' :: _ => [.bad]
  | none, c :: s => .char c :: iniParts none s
  | none, [] => []
  | some name, ')' :: 's' :: s => if name = [] then [.bad] else .ref name :: iniParts none s
  | some _, ')' :: _ => [.bad]
  | some name, c :: s => iniParts (some (name ++ [c])) s
  | some _, [] => [.bad]

def maxInterpolationDepth : Nat := 10

/-- `_interpolate_some`, with the depth that is left. -/
def interpolate (py : Python) (options : Str → Option Str) : Nat → Str → Except PyError Str
  | 0, _ => .error .interpolation
  | depth + 1, value =>
      (iniParts none value).foldlM (fun accum part =>
        match part with
        | .char c => .ok (accum ++ [c])
        | .bad => .error .interpolation
        | .ref name =>
            match options (py.lower name) with
            | none => .error .interpolation
            | some v =>
                if '%' ∈ v then (interpolate py options depth v).map fun s => accum ++ s
                else .ok (accum ++ v)) []

/-! ### The options of a section -/

namespace Ini

/-- The keys of a section are its own, and then those of the defaults that it does not have. -/
def options (ini : Ini) (sect : Dict Str Str) : List Str :=
  sect.keys ++ ini.defaults.keys.filter fun k => k ∉ sect.keys

def lookup (ini : Ini) (sect : Dict Str Str) (option : Str) : Option Str :=
  (sect.get? option).or (ini.defaults.get? option)

/-- `ini[sect][key]`. -/
def getItem (py : Python) (ini : Ini) (sect : Dict Str Str) (key : Str) : Except PyError Str :=
  match ini.lookup sect (py.lower key) with
  | none => .error .keyError
  | some value => interpolate py (ini.lookup sect) maxInterpolationDepth value

end Ini

end Hwemu
