import JsonExpect.Text.Digit

/-!
# Arguments of the command line

One folder is named, and options stand before or behind it. An option is written by its letter
behind a dash, where letters without a value may be joined, or by its name behind two dashes, which
may be cut short as long as it stays unique. A value follows as the next argument, or in the same
one: behind an equals sign, or right behind a letter. Two dashes as such a value take back what was
given before. After two dashes alone every argument is taken as it is.
-/

namespace JsonExpect.CommandLine

/-- The options. -/
inductive Opt where
  | help
  | rules
  | report
  | pattern
  | quiet
  | verbose
deriving DecidableEq, Repr

namespace Opt

def all : List Opt := [.help, .rules, .report, .pattern, .quiet, .verbose]

def letter : Opt → Char
  | .help => 'h'
  | .rules => 'r'
  | .report => 'o'
  | .pattern => 'p'
  | .quiet => 'q'
  | .verbose => 'v'

def name : Opt → String
  | .help => "help"
  | .rules => "rules"
  | .report => "report"
  | .pattern => "pattern"
  | .quiet => "quiet"
  | .verbose => "verbose"

/-- Whether the option comes with a value. -/
def takesValue : Opt → Bool
  | .rules => true
  | .report => true
  | .pattern => true
  | .help => false
  | .quiet => false
  | .verbose => false

def ofLetter? (c : Char) : Option Opt := all.find? (·.letter = c)

/-- The options whose names begin with some characters; a whole name means its option alone. -/
def abbreviatedBy (cs : List Char) : List Opt :=
  match all.find? (·.name.toList = cs) with
  | some o => [o]
  | none => all.filter fun o => cs.isPrefixOf o.name.toList

end Opt

/-- A use of options in one argument: options without values, the last of which may have a value. -/
structure Group where
  flags : List Opt
  last : Opt
  value : Option String
deriving DecidableEq, Repr

/-- What an argument is. -/
inductive Word where
  | plain (text : String)
  | options (g : Group)
  | unknown
  /-- An option that is given a value but takes none, or an unknown one among letters. -/
  | wrong
  /-- A name that could be the beginning of several. -/
  | ambiguous
  /-- Two dashes alone. -/
  | separator
deriving DecidableEq, Repr

namespace Word

/-- An option with what an equals sign gives it. -/
def withValue (flags : List Opt) (o : Opt) (value : Option String) : Word :=
  if o.takesValue || value.isNone then .options ⟨flags, o, value⟩ else .wrong

/-- An option behind a dash, and what stands right behind it: its value, or further letters where it
takes none. -/
def joined (flags : List Opt) (o : Opt) : List Char → Word
  | [] => .options ⟨flags, o, none⟩
  | c :: cs =>
    if o.takesValue then .options ⟨flags, o, some (String.ofList (c :: cs))⟩
    else
      match Opt.ofLetter? c with
      | some next => joined (flags ++ [o]) next cs
      | none => .wrong

/-- The first letter behind a dash, and what stands behind it, maybe behind an equals sign. -/
def ofLetter (o : Opt) (cs : List Char) : Word :=
  match cs with
  | '=' :: value =>
    if value = [] then withValue [] o (some "") else joined [] o value
  | cs => joined [] o cs

/-- The text without a line feed at its end. -/
def withoutLineFeed (cs : List Char) : List Char :=
  if cs.getLast? = some '\n' then cs.dropLast else cs

/-- Whether an argument is a negative number: digits, with at most one point before the last. -/
def isNegativeNumber (cs : List Char) : Bool :=
  let whole := (withoutLineFeed cs).takeWhile isDecimalDigit
  match (withoutLineFeed cs).dropWhile isDecimalDigit with
  | [] => !whole.isEmpty
  | '.' :: fraction => !fraction.isEmpty && fraction.all isDecimalDigit
  | _ => false

/-- A name behind two dashes, with what an equals sign gives it. -/
def ofName (cs : List Char) : Word :=
  let name := cs.takeWhile (· ≠ '=')
  let value := match cs.dropWhile (· ≠ '=') with
    | [] => none
    | _ :: value => some (String.ofList value)
  match Opt.abbreviatedBy name with
  | [o] => withValue [] o value
  | [] => if ' ' ∈ cs then .plain (String.ofList ('-' :: '-' :: cs)) else .unknown
  | _ => .ambiguous

/-- What an argument before two dashes alone is. An unknown option counts as one only without a
space in it, and not when it is a number. -/
def ofArgument (text : String) : Word :=
  match text.toList with
  | ['-', '-'] => .separator
  | '-' :: '-' :: cs => ofName cs
  | '-' :: c :: cs =>
    match Opt.ofLetter? c with
    | some o => ofLetter o cs
    | none => if isNegativeNumber (c :: cs) || ' ' ∈ c :: cs then .plain text else .unknown
  | _ => .plain text

/-- What arguments are. After two dashes alone all are plain. -/
def ofArguments : List String → List Word
  | [] => []
  | text :: rest =>
    match ofArgument text with
    | .separator => .separator :: rest.map .plain
    | w => w :: ofArguments rest

end Word

/-- What the command line asks for. -/
structure Arguments where
  cases : String := ""
  rules : Option String := none
  report : Option String := none
  /-- The pattern of the names of case files, none where it has been taken back. -/
  pattern : Option String := some "*.json"
  quiet : Bool := false
  verbose : Bool := false
deriving DecidableEq, Repr, Inhabited

/-- What arguments come to: a run, a request for help, or a mistake. -/
inductive Request where
  | run (a : Arguments)
  | help
  | mistake
deriving DecidableEq, Repr

/-- Arguments that are being read. -/
structure Reading where
  arguments : Arguments := {}
  /-- Whether the folder has been named. -/
  named : Bool := false
  /-- Whether something was met that has no place. -/
  surplus : Bool := false
deriving DecidableEq, Repr

namespace Reading

/-- Takes an option that has its value, if it takes one. Help is not asked for. -/
def setOption (r : Reading) (o : Opt) (value : Option String) : Reading :=
  let a := r.arguments
  { r with arguments := match o with
      | .help => a
      | .rules => { a with rules := value }
      | .report => { a with report := value }
      | .pattern => { a with pattern := value }
      | .quiet => { a with quiet := true }
      | .verbose => { a with verbose := true } }

/-- Takes the folder, or notes that there is one already. -/
def takePlain (r : Reading) (text : String) : Reading :=
  if r.named then { r with surplus := true }
  else { r with arguments := { r.arguments with cases := text }, named := true }

/-- Takes options without values. -/
def takeFlags (r : Reading) (flags : List Opt) : Reading :=
  flags.foldl (fun r o => r.setOption o none) r

/-- Reads words in turn. Help ends the reading, and so does an option that is used wrongly; what has
no place is noted and counts at the end. Two dashes alone must stand next to the folder. -/
def run (r : Reading) : List Word → Request
  | [] => if r.named && !r.surplus then .run r.arguments else .mistake
  | .plain text :: .separator :: rest => run (r.takePlain text) rest
  | .plain text :: rest => run (r.takePlain text) rest
  | .separator :: .plain text :: rest => run (r.takePlain text) rest
  | .separator :: rest => run { r with surplus := true } rest
  | .wrong :: _ => .mistake
  | .ambiguous :: _ => .mistake
  | .unknown :: rest => run { r with surplus := true } rest
  | .options ⟨flags, last, some value⟩ :: rest =>
    if .help ∈ flags then .help
    else run ((r.takeFlags flags).setOption last (if value = "--" then none else some value)) rest
  | .options ⟨flags, last, none⟩ :: rest =>
    if last.takesValue then
      match rest with
      | .plain value :: rest =>
        if .help ∈ flags then .help else run ((r.takeFlags flags).setOption last (some value)) rest
      | _ => .mistake
    else if .help ∈ flags ∨ last = .help then .help
    else run ((r.takeFlags flags).setOption last none) rest

end Reading

/-- What the arguments of the program ask for. An ambiguous name is a mistake even behind a request
for help. -/
def Request.ofArguments (arguments : List String) : Request :=
  let words := Word.ofArguments arguments
  if .ambiguous ∈ words then .mistake else Reading.run {} words

end JsonExpect.CommandLine
