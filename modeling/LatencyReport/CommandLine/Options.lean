/-!
# `CommandLine.Options` — what the arguments ask for

Arguments are read **from left to right, and the first that is wrong or that ends the program decides**; what comes
after it is not looked at. Every option that takes a value takes it from its own argument or from the next one, which
then must not look like an option. Only the option for log directives can be given more than once.

## Contents

* `Options`, `Ending` — what is asked for, or why the program ends before it starts;
* `Options.parse` — reading the arguments.
-/

namespace LatencyReport

/-- What the arguments ask for. -/
structure Options where
  data : Option String := none
  plots : Option String := none
  config : Option String := none
  log : List String := []
  printConfig : Bool := false
deriving DecidableEq, Repr

/-- Why the program ends before it starts. -/
inductive Ending where
  | version
  | help
  | wrong (argument : String)
deriving DecidableEq, Repr

namespace Options

/-- The options that take a value. -/
inductive Key where
  | data
  | plots
  | config
  | log
deriving DecidableEq, Repr

/-- The option with a name. -/
def Key.ofName? (name : String) : Option Key :=
  match name with
  | "data" => some .data
  | "plots" => some .plots
  | "config" => some .config
  | "log" => some .log
  | _ => none

/-- The option with a letter. -/
def Key.ofLetter? (c : Char) : Option Key :=
  match c with
  | 'd' => some .data
  | 'p' => some .plots
  | 'c' => some .config
  | 'l' => some .log
  | _ => none

/-- A path that was not given so far and is not empty. -/
def setPath (given : Option String) (value : String) : Except Ending (Option String) :=
  if given.isSome || value.isEmpty then .error (.wrong value) else .ok (some value)

/-- The options with one more value. -/
def set (o : Options) (key : Key) (value : String) : Except Ending Options :=
  match key with
  | .data => (setPath o.data value).map fun data => { o with data }
  | .plots => (setPath o.plots value).map fun plots => { o with plots }
  | .config => (setPath o.config value).map fun config => { o with config }
  | .log => .ok { o with log := o.log ++ [value] }

/-- What one argument says. -/
inductive Argument where
  | ends
  | given (key : Key) (value : String)
  /-- The value is the next argument. -/
  | awaits (key : Key)
  | printConfig
  | stop (ending : Ending)
deriving DecidableEq, Repr

/-- What an argument with two dashes says, its name and its value apart. -/
def Argument.ofLong (text : String) (name : List Char) (value : Option (List Char)) : Argument :=
  match Key.ofName? (String.ofList name), value with
  | some key, some v => .given key (String.ofList v)
  | some key, none => .awaits key
  | none, some _ => .stop (.wrong text)
  | none, none =>
    match String.ofList name with
    | "print-config" => .printConfig
    | "version" => .stop .version
    | "help" => .stop .help
    | _ => .stop (.wrong text)

/-- What an argument says. -/
def Argument.ofText (text : String) : Argument :=
  match text.toList with
  | ['-', '-'] => .ends
  | '-' :: '-' :: rest =>
    match rest.dropWhile (· != '=') with
    | '=' :: value => ofLong text (rest.takeWhile (· != '=')) (some value)
    | _ => ofLong text rest none
  | '-' :: letter :: rest =>
    match Key.ofLetter? letter, rest with
    | some key, [] => .awaits key
    | some key, '=' :: value => .given key (String.ofList value)
    | some key, value => .given key (String.ofList value)
    | none, _ => .stop (if letter = 'V' then .version else if letter = 'h' then .help else .wrong text)
  | _ => .stop (.wrong text)

/-- Whether an argument looks like an option, and so is no value of the one before it. -/
def looksLikeOption (text : String) : Bool :=
  text.toList.head? == some '-' && text != "-"

/-- What the arguments ask for in addition to what the ones before asked for. -/
def parseFrom (o : Options) : List String → Except Ending Options
  | [] => .ok o
  | text :: rest =>
    match Argument.ofText text with
    | .stop ending => .error ending
    | .ends =>
      match rest with
      | [] => .ok o
      | extra :: _ => .error (.wrong extra)
    | .printConfig => if o.printConfig then .error (.wrong text) else parseFrom { o with printConfig := true } rest
    | .given key value =>
      match o.set key value with
      | .error ending => .error ending
      | .ok o => parseFrom o rest
    | .awaits key =>
      match rest with
      | [] => .error (.wrong text)
      | value :: rest =>
        if looksLikeOption value then .error (.wrong text)
        else
          match o.set key value with
          | .error ending => .error ending
          | .ok o => parseFrom o rest

/-- What the arguments ask for. -/
def parse (args : List String) : Except Ending Options :=
  parseFrom {} args

end Options

end LatencyReport
