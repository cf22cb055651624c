import DuplexRpc.Address.Grammar
import DuplexRpc.Text.Cut

/-!
The arguments of the program: flags, a command, and the options and operands of the command. An
option takes its value behind an equals sign or from the next argument, which must not look like an
option itself. What comes behind a double dash is an operand.
-/
namespace DuplexRpc.CommandLine

inductive Command where
  | resolve (uri : String)
  | listen (uri : Option String) (port : Option UInt16)
  | invoke (url method params : String) (timeout : Option Duration)
  deriving DecidableEq

/-- Why there is no command to run. -/
inductive Refusal where
  | help | misuse
  deriving DecidableEq, Repr

/-- What a command takes. -/
structure Grammar where
  /-- the options with a value, and which values they allow -/
  options : List (String × (String → Bool))
  /-- how many operands there may be -/
  operands : Nat

structure Reading where
  debug : Bool
  options : List (String × String)
  operands : List String
  deriving DecidableEq, Repr

namespace Reading

def empty : Reading := ⟨false, [], []⟩

/-- A flag may be given once. -/
def setDebug (r : Reading) : Except Refusal Reading :=
  if r.debug then .error .misuse else .ok { r with debug := true }

/-- An option may be given once. -/
def setOption (r : Reading) (name value : String) (allowed : Bool) : Except Refusal Reading :=
  if !allowed || (r.options.lookup name).isSome then .error .misuse
  else .ok { r with options := (name, value) :: r.options }

def addOperand (r : Reading) (g : Grammar) (operand : String) : Except Refusal Reading :=
  if r.operands.length < g.operands then .ok { r with operands := r.operands ++ [operand] }
  else .error .misuse

/-- A cluster of short flags. -/
def setFlags (r : Reading) : List Char → Except Refusal Reading
  | [] => .ok r
  | 'd' :: flags => do (← r.setDebug).setFlags flags
  | 'h' :: _ => .error .help
  | _ => .error .misuse

end Reading

/-- An argument by its looks. -/
inductive Shape where
  | dashes
  | long (name : String) (value : Option String)
  | short (flags : List Char)
  | plain

def Shape.ofText (arg : String) : Shape :=
  match arg.toList with
  | ['-', '-'] => .dashes
  | '-' :: '-' :: rest =>
    match Text.cut? ['='] rest with
    | some (name, value) => .long (String.ofList name) (some (String.ofList value))
    | none => .long (String.ofList rest) none
  | '-' :: flag :: flags => .short (flag :: flags)
  | _ => .plain

def isPlain (arg : String) : Bool :=
  match Shape.ofText arg with
  | .plain => true
  | _ => false

/-- Flags that all commands take. -/
def readFlag (r : Reading) (name : String) (value : Option String) : Except Refusal Reading :=
  match name, value with
  | "debug", none => r.setDebug
  | "help", none => .error .help
  | _, _ => .error .misuse

/-- Reads the arguments of a command. -/
def read (g : Grammar) (r : Reading) : List String → Except Refusal Reading
  | [] => .ok r
  | arg :: args =>
    match Shape.ofText arg with
    | .dashes => args.foldlM (·.addOperand g ·) r
    | .plain => do read g (← r.addOperand g arg) args
    | .short flags => do read g (← r.setFlags flags) args
    | .long name value =>
      match g.options.lookup name with
      | none => do read g (← readFlag r name value) args
      | some allows =>
        match value, args with
        | some value, args => do read g (← r.setOption name value (allows value)) args
        | none, value :: args =>
          if isPlain value then do read g (← r.setOption name value (allows value)) args
          else .error .misuse
        | none, [] => .error .misuse

/-- A port may be written as a negative zero. -/
def port? (raw : String) : Option UInt16 :=
  match raw.toList with
  | '-' :: digits => if !digits.isEmpty && digits.all (· == '0') then some 0 else none
  | raw => Address.port? raw

def millis? (raw : String) : Option UInt64 :=
  let digits := match raw.toList with
    | '+' :: rest => rest
    | raw => raw
  let n := Address.decimalValue digits
  if !digits.isEmpty && digits.all Char.isDigit && n < 0x10000000000000000 then some (.ofNat n)
  else none

def anyText (_ : String) : Bool := true

def resolveGrammar : Grammar := ⟨[], 1⟩

def listenGrammar : Grammar := ⟨[("listen", anyText), ("port", fun s => (port? s).isSome)], 0⟩

def invokeGrammar : Grammar :=
  ⟨[("url", anyText), ("method", anyText), ("params", anyText),
    ("timeout-ms", fun s => (millis? s).isSome)], 0⟩

def need {α : Type} : Option α → Except Refusal α
  | some a => .ok a
  | none => .error .misuse

def commandNames : List String := ["resolve", "listen", "invoke", "help"]

/-- The command of a name, from the arguments behind it. -/
def readCommand (name : String) (args : List String) : Except Refusal Command :=
  match name with
  | "resolve" => do
    let r ← read resolveGrammar .empty args
    pure (.resolve (← need r.operands.head?))
  | "listen" => do
    let r ← read listenGrammar .empty args
    pure (.listen (r.options.lookup "listen") ((r.options.lookup "port").bind port?))
  | "invoke" => do
    let r ← read invokeGrammar .empty args
    let timeout := ((r.options.lookup "timeout-ms").bind millis?).map Duration.ofMillis
    pure (.invoke (← need (r.options.lookup "url")) (← need (r.options.lookup "method"))
      ((r.options.lookup "params").getD "\x7b\x7d") timeout)
  | "help" =>
    match args with
    | [] => .error .help
    | [name] => .error (if commandNames.contains name then .help else .misuse)
    | _ => .error .misuse
  | _ => .error .misuse

/-- Reads the flags in front of the command, then the command. -/
def parse (r : Reading) : List String → Except Refusal Command
  | [] => .error .misuse
  | arg :: args =>
    match Shape.ofText arg with
    | .dashes => .error .misuse
    | .short flags => do parse (← r.setFlags flags) args
    | .long name value => do parse (← readFlag r name value) args
    | .plain => readCommand arg args

end DuplexRpc.CommandLine
