import ThreadCommissioner.Exchanges

namespace ThreadCommissioner.JoinerCommands

open ByteStrings Commissioners Computations Datasets Errors Exchanges JoinerSessions Meshcop Primitives Steering Texts

section Numbers

/-- The characters that `trim` removes, in UTF-8. -/
def whitespaces : List Bytes :=
  [[0x09], [0x0a], [0x0b], [0x0c], [0x0d], [0x20], [0xc2, 0x85], [0xc2, 0xa0], [0xe1, 0x9a, 0x80],
    [0xe2, 0x80, 0x80], [0xe2, 0x80, 0x81], [0xe2, 0x80, 0x82], [0xe2, 0x80, 0x83], [0xe2, 0x80, 0x84],
    [0xe2, 0x80, 0x85], [0xe2, 0x80, 0x86], [0xe2, 0x80, 0x87], [0xe2, 0x80, 0x88], [0xe2, 0x80, 0x89],
    [0xe2, 0x80, 0x8a], [0xe2, 0x80, 0xa8], [0xe2, 0x80, 0xa9], [0xe2, 0x80, 0xaf], [0xe2, 0x81, 0x9f],
    [0xe3, 0x80, 0x80]]

/-- Removes up to `count` of the given characters from the front. -/
def trimFront (characters : List Bytes) : ℕ → Bytes → Bytes
  | 0, bs => bs
  | count + 1, bs =>
    match characters.find? (·.isPrefixOf bs) with
    | some character => trimFront characters count (bs.drop character.length)
    | none => bs

def trim (bs : Bytes) : Bytes :=
  let front := trimFront whitespaces bs.length bs
  (trimFront (whitespaces.map List.reverse) front.length front.reverse).reverse

def digitOf (radix : ℕ) (byte : UInt8) : Option ℕ :=
  let value :=
    if 0x30 ≤ byte ∧ byte ≤ 0x39 then byte.toNat - 0x30
    else if 0x61 ≤ byte ∧ byte ≤ 0x7a then byte.toNat - 0x61 + 10
    else if 0x41 ≤ byte ∧ byte ≤ 0x5a then byte.toNat - 0x41 + 10
    else radix
  if value < radix then some value else none

/-- `from_str_radix` of an unsigned type with values below `bound`. -/
def fromStrRadix (radix bound : ℕ) (text : Bytes) : Option ℕ :=
  let digits := if text.head? = some 0x2b then text.tail else text
  if digits = [] then none
  else
    digits.foldlM (fun value byte => do
      let digit ← digitOf radix byte
      let value := value * radix + digit
      if value < bound then some value else none) 0

def parseU64 (token : Text) : Option UInt64 :=
  let s := trim token.bytes
  if s.take 2 = ascii "0x" ∨ s.take 2 = ascii "0X" then (fromStrRadix 16 (2 ^ 64) (s.drop 2)).map UInt64.ofNat
  else (fromStrRadix 10 (2 ^ 64) s).map UInt64.ofNat

end Numbers

/-- The text of a failed operation is the display of its error. -/
inductive Body
  | text (bytes : Bytes)
  | error (e : Error)
  deriving DecidableEq

structure CommandValue where
  body : Body
  failed : Bool
  deriving DecidableEq

namespace CommandValue

def ok (data : Bytes) : CommandValue := ⟨.text data, false⟩

def done : CommandValue := ok []

def fail (message : Bytes) : CommandValue := ⟨.text message, true⟩

def failedWith (e : Error) : CommandValue := ⟨.error e, true⟩

def ofResult : Except Error Unit → CommandValue
  | .ok () => done
  | .error e => failedWith e

end CommandValue

def syntaxFewArgs : Bytes := ascii "too few arguments"

def notConnected : Bytes := ascii "commissioner is not started; run 'start' first"

def around (before : String) (token : Text) (after : String) : Bytes := ascii before ++ token.bytes ++ ascii after

variable [Suite]

/-- What the joiner commands use of the interpreter. -/
structure Interpreter where
  commissioner : Option (Commissioner StaticJoinerHandler)
  joinerPskds : List (ByteVector 8 × Text)
  joinerAllPskd : Option Text

namespace Interpreter

def insertPskd (cli : Interpreter) (joinerId : ByteVector 8) (pskd : Text) : Interpreter :=
  { cli with joinerPskds := cli.joinerPskds.filter (·.1 ≠ joinerId) ++ [(joinerId, pskd)] }

def removePskd (cli : Interpreter) (joinerId : ByteVector 8) : Interpreter :=
  { cli with joinerPskds := cli.joinerPskds.filter (·.1 ≠ joinerId) }

def buildJoinerHandler (cli : Interpreter) : StaticJoinerHandler :=
  let handler := match cli.joinerAllPskd with
    | some pskd => StaticJoinerHandler.new.enableAll pskd
    | none => .new
  cli.joinerPskds.foldl (fun handler entry => handler.enableJoinerId entry.1 entry.2) handler

def reinstallJoinerHandler (cli : Interpreter) : Interpreter :=
  { cli with
    commissioner := cli.commissioner.map fun commissioner =>
      finalState ((setJoinerHandler cli.buildJoinerHandler).run commissioner) }

/-- An operation of the commissioner, and the interpreter after it. -/
def perform {α : Type} (cli : Interpreter) (commissioner : Commissioner StaticJoinerHandler)
    (operation : CommissionerM StaticJoinerHandler α) : Except Error α × Interpreter :=
  let result := operation.run commissioner
  (outcome result, { cli with commissioner := some (finalState result) })

section Subcommands

variable (cli : Interpreter) (commissioner : Commissioner StaticJoinerHandler)

def joinerEnable : List Text → CommandValue × Interpreter
  | eui64Token :: pskd :: _ =>
    match parseU64 eui64Token with
    | none => (.fail (around "invalid EUI-64 '" eui64Token "'"), cli)
    | some eui64 =>
      let joinerId := computeJoinerId eui64
      match cli.perform commissioner (enableJoiner joinerId) with
      | (.error e, cli) => (.failedWith e, cli)
      | (.ok (), cli) => (.done, (cli.insertPskd joinerId pskd).reinstallJoinerHandler)
  | _ => (.fail syntaxFewArgs, cli)

def joinerEnableAll : List Text → CommandValue × Interpreter
  | pskd :: _ =>
    match cli.perform commissioner (enableAllJoiners true) with
    | (.error e, cli) => (.failedWith e, cli)
    | (.ok (), cli) => (.done, { cli with joinerAllPskd := some pskd }.reinstallJoinerHandler)
  | [] => (.fail syntaxFewArgs, cli)

def joinerDisable : List Text → CommandValue × Interpreter
  | eui64Token :: _ =>
    match parseU64 eui64Token with
    | none => (.fail (around "invalid EUI-64 '" eui64Token "'"), cli)
    | some eui64 => (.done, (cli.removePskd (computeJoinerId eui64)).reinstallJoinerHandler)
  | [] => (.fail syntaxFewArgs, cli)

def joinerDisableAll : CommandValue × Interpreter :=
  let (result, cli) := cli.perform commissioner (enableAllJoiners false)
  (.ofResult result, { cli with joinerPskds := [], joinerAllPskd := none }.reinstallJoinerHandler)

def joinerGetPort : CommandValue × Interpreter :=
  match cli.perform commissioner (getCommissionerDataset CommissionerDatasetFlags.joinerUdpPort) with
  | (.ok dataset, cli) =>
    match dataset.raw tlvJoinerUdpPort with
    | some [hi, lo] => (.ok (ascii (toString (beNat [hi, lo]))), cli)
    | _ => (.fail (ascii "joiner UDP port not present"), cli)
  | (.error e, cli) => (.failedWith e, cli)

def joinerSetPort : List Text → CommandValue × Interpreter
  | portToken :: _ =>
    match fromStrRadix 10 (2 ^ 16) portToken.bytes with
    | none => (.fail (around "invalid port '" portToken "'"), cli)
    | some port =>
      let (result, cli) := cli.perform commissioner
        (setCommissionerDataset (Dataset.default.setRaw tlvJoinerUdpPort (beBytes 2 port)))
      (.ofResult result, cli)
  | [] => (.fail syntaxFewArgs, cli)

end Subcommands

def cmdJoiner (tokens : List Text) (cli : Interpreter) : CommandValue × Interpreter :=
  match tokens with
  | _ :: subcommand :: joinerType :: arguments =>
    if joinerType.bytes = ascii "ae" ∨ joinerType.bytes = ascii "nmkp" then
      (.fail (around "joiner type '" joinerType "' (CCM) is not implemented in this build"), cli)
    else if joinerType.bytes ≠ ascii "meshcop" then (.fail (around "" joinerType " is not a valid joiner type"), cli)
    else
      match cli.commissioner with
      | none => (.fail notConnected, cli)
      | some commissioner =>
        if subcommand.bytes = ascii "enable" then cli.joinerEnable commissioner arguments
        else if subcommand.bytes = ascii "enableall" then cli.joinerEnableAll commissioner arguments
        else if subcommand.bytes = ascii "disable" then cli.joinerDisable arguments
        else if subcommand.bytes = ascii "disableall" then cli.joinerDisableAll commissioner
        else if subcommand.bytes = ascii "getport" then cli.joinerGetPort commissioner
        else if subcommand.bytes = ascii "setport" then cli.joinerSetPort commissioner arguments
        else (.fail (around "" subcommand " is not a valid sub-command"), cli)
  | _ => (.fail syntaxFewArgs, cli)

end Interpreter

end ThreadCommissioner.JoinerCommands
