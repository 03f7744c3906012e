import ThreadCommissioner.Collectors
import ThreadCommissioner.DatasetJson
import ThreadCommissioner.Lines

namespace ThreadCommissioner.Interpreters

open ByteStrings Coap Commissioners Computations DatasetJson Datasets Diagnostics Errors Exchanges JoinerCommands
open JoinerSessions Lines Meshcop Operations Primitives Requests Texts ThreadCommissioner.Topology Transport
open Collectors (DiagFlags.extMacAddr DiagFlags.macAddr)

section Words

/-- What is read of the configuration. -/
structure CliConfig where
  id : Text
  enableCcm : Bool
  keepAliveInterval : UInt64
  pskc : Bytes
  adminCode : Text

def CliConfig.toCommissionerConfig (config : CliConfig) : Except Error CommissionerConfig := do
  ensure (config.enableCcm = false) (Error.unsupported "CCM is reserved but deferred")
  ensure (config.pskc.length = 16)
    (Error.dataset "PSKc must be exactly 16 bytes; set it with 'config set pskc'")
  let built : CommissionerConfig := ⟨config.id, config.keepAliveInterval.toNat * 10 ^ 9, config.enableCcm⟩
  built.validate
  return built

/-- The commands that are told apart. The last is the network registry, which
has three names. -/
inductive Command
  | help | exit | config | state | start | stop | active | sessionid | borderagent | joiner | commdataset | opdataset
  | bbrdataset | reenroll | domainreset | migrate | mlr | announce | panid | energy | netdiag | token | registry
  deriving DecidableEq

def Command.words : List (String × Command) :=
  [("help", .help), ("exit", .exit), ("quit", .exit), ("config", .config), ("state", .state), ("start", .start),
    ("stop", .stop), ("active", .active), ("sessionid", .sessionid), ("borderagent", .borderagent), ("joiner", .joiner),
    ("commdataset", .commdataset), ("opdataset", .opdataset), ("bbrdataset", .bbrdataset), ("reenroll", .reenroll),
    ("domainreset", .domainreset), ("migrate", .migrate), ("mlr", .mlr), ("announce", .announce), ("panid", .panid),
    ("energy", .energy), ("netdiag", .netdiag), ("token", .token), ("br", .registry), ("domain", .registry),
    ("network", .registry)]

def Command.named (token : Text) : Option Command := (Command.words.find? (ascii ·.1 = token.bytes)).map (·.2)

/-- The fields of the active dataset that are read one by one. -/
inductive OpField
  | activetimestamp | channel | channelmask | xpanid | meshLocalPrefix | networkmasterkey | networkname | panid | pskc
  | securitypolicy
  deriving DecidableEq

def OpField.words : List (String × OpField) :=
  [("activetimestamp", .activetimestamp), ("channel", .channel), ("channelmask", .channelmask), ("xpanid", .xpanid),
    ("meshlocalprefix", .meshLocalPrefix), ("networkmasterkey", .networkmasterkey), ("networkname", .networkname),
    ("panid", .panid), ("pskc", .pskc), ("securitypolicy", .securitypolicy)]

def OpField.named (token : Text) : Option OpField := (OpField.words.find? (ascii ·.1 = token.bytes)).map (·.2)

def Spells (token : Text) (word : String) : Prop := token.bytes = ascii word

instance (token : Text) (word : String) : Decidable (Spells token word) := inferInstanceAs (Decidable (_ = _))

def hasMultiNetworkFlag (tokens : List Text) : Bool := tokens.any fun token => Spells token "--nwk" ∨ Spells token "--dom"

def among (words : List String) (tokens : List Text) : Bool :=
  match tokens with
  | _ :: subcommand :: _ => words.any (Spells subcommand ·)
  | _ => false

def commandMayWaitForCommissioner (tokens : List Text) : Bool :=
  match tokens.head?.bind Command.named with
  | some .start => true
  | some .borderagent => among ["get"] tokens
  | some .joiner => among ["enable", "enableall", "disableall", "getport", "setport"] tokens
  | some .commdataset | some .opdataset => among ["get", "set"] tokens
  | some .bbrdataset => among ["get"] tokens
  | some .reenroll | some .domainreset | some .migrate | some .mlr | some .announce => true
  | some .panid => among ["query"] tokens
  | some .energy => among ["scan"] tokens
  | some .netdiag => among ["query", "reset"] tokens
  | _ => false

def parseU32 (token : Text) : Option UInt32 :=
  let s := trim token.bytes
  if s.take 2 = ascii "0x" ∨ s.take 2 = ascii "0X" then (fromStrRadix 16 (2 ^ 32) (s.drop 2)).map UInt32.ofNat
  else (fromStrRadix 10 (2 ^ 32) s).map UInt32.ofNat

/-- `parse` of a token into an unsigned type with values below `bound`. -/
def parseBelow (bound : ℕ) (token : Text) : Option ℕ := fromStrRadix 10 bound token.bytes

def commands : List (String × List String) :=
  [("config", ["config get admincode", "config set admincode <9-digits-thread-administrator-passcode>",
      "config get pskc", "config set pskc <pskc-hex-string>"]),
    ("start", ["start <border-agent-addr> <border-agent-port> [--connect-only]",
      "start [ --nwk <network-alias-list | --dom <domain-alias>]"]),
    ("stop", ["stop", "stop [ --nwk <network-alias-list | --dom <domain-alias>]"]),
    ("active", ["active", "active [ --nwk <network-alias-list | --dom <domain-alias>]"]),
    ("token", ["token request <registrar-addr> <registrar-port>", "token print",
      "token set <signed-token-hex-string-file>"]),
    ("br", ["br list [--nwk <network-alias-list> | --dom <domain-name>]", "br add <json-file-path>",
      "br delete (<br-record-id> | --nwk <network-alias-list> | --dom <domain-name>)",
      "br scan [--nwk <network-alias-list> | --dom <domain-name>] [--export <json-file-path>] [--timeout <ms>] [--netif <network-interface>]"]),
    ("domain", ["domain list [--dom <domain-name>]"]),
    ("network", ["network save <network-data-file>", "network sync",
      "network list [--nwk <network-alias-list> | --dom <domain-name>]",
      "network select <extended-pan-id>|<name>|<pan-id>|none", "network identify"]),
    ("sessionid", ["sessionid"]),
    ("borderagent", ["borderagent discover [<timeout-in-milliseconds>]", "borderagent get locator"]),
    ("joiner", ["joiner enable (meshcop|ae|nmkp) <joiner-eui64> [<joiner-password>] [<provisioning-url>]",
      "joiner enableall (meshcop|ae|nmkp) [<joiner-password>] [<provisioning-url>]",
      "joiner disable (meshcop|ae|nmkp) <joiner-eui64>", "joiner disableall (meshcop|ae|nmkp)",
      "joiner getport (meshcop|ae|nmkp)", "joiner setport (meshcop|ae|nmkp) <joiner-udp-port>"]),
    ("commdataset", ["commdataset get", "commdataset set '<commissioner-dataset-in-json-string>'"]),
    ("opdataset", ["opdataset get activetimestamp", "opdataset get channel",
      "opdataset set channel <page> <channel> <delay-in-milliseconds>", "opdataset get channelmask",
      "opdataset set channelmask (<page> <channel-mask>)...", "opdataset get xpanid",
      "opdataset set xpanid <extended-pan-id>", "opdataset get meshlocalprefix",
      "opdataset set meshlocalprefix <prefix> <delay-in-milliseconds>", "opdataset get networkmasterkey",
      "opdataset set networkmasterkey <network-master-key> <delay-in-milliseconds>", "opdataset get networkname",
      "opdataset set networkname <network-name>", "opdataset get panid",
      "opdataset set panid <panid> <delay-in-milliseconds>", "opdataset get pskc", "opdataset set pskc <PSKc>",
      "opdataset get securitypolicy", "opdataset set securitypolicy <rotation-timer> <flags-hex>",
      "opdataset get active", "opdataset set active '<active-dataset-in-json-string>'", "opdataset get pending",
      "opdataset set pending '<pending-dataset-in-json-string>'"]),
    ("bbrdataset", ["bbrdataset get trihostname", "bbrdataset set trihostname <TRI-hostname>",
      "bbrdataset get reghostname", "bbrdataset set reghostname <registrar-hostname>", "bbrdataset get regaddr",
      "bbrdataset get", "bbrdataset set '<bbr-dataset-in-json-string>'"]),
    ("reenroll", ["reenroll <device-addr>"]),
    ("domainreset", ["domainreset <device-addr>"]),
    ("migrate", ["migrate <device-addr> <designated-network-name>"]),
    ("mlr", ["mlr (<multicast-addr>)+ <timeout-in-seconds>"]),
    ("announce", ["announce <channel-mask> <count> <period> <dst-addr>"]),
    ("panid", ["panid query <channel-mask> <panid> <dst-addr>", "panid conflict <panid>"]),
    ("energy", ["energy scan <channel-mask> <count> <period> <scan-duration> <dst-addr>",
      "energy report [<dst-addr>]"]),
    ("netdiag", ["netdiag query [extaddr | rloc16] <dest mesh local address>",
      "netdiag reset maccounters <dest mesh local address>"]),
    ("state", ["state"]),
    ("exit", ["exit"]),
    ("quit", ["quit", "(an alias to 'exit' command)"]),
    ("help", ["help [<command>]"])]

end Words

section Instants

/-- The instants that the system has lie below a limit, in nanoseconds. -/
class Instants where
  limit : ℕ

def checkedAdd [Instants] (instant duration : ℕ) : Option ℕ :=
  if instant + duration < Instants.limit then some (instant + duration) else none

def commandKeepaliveHeadroom : ℕ := 20 * 10 ^ 9

end Instants

section Events

variable [Suite] {H : Type} [JoinerHandler H]

/-- `next_event` until the response is found among the events; the others are
kept. The queue holds it by then, so that as many rounds as the queue is long
are enough. -/
def awaitCallback : ℕ → CommissionerM H (List CommissionerEvent × ResultCode)
  | 0 => throw (.invalidState "keep-alive response event was not queued")
  | rounds + 1 => do
    match ← nextEvent with
    | some (.keepAliveResponse callbackResult) => return ([], callbackResult)
    | some other =>
      let (deferredEvents, callbackResult) ← awaitCallback rounds
      return (other :: deferredEvents, callbackResult)
    | none => throw (.invalidState "keep-alive response event was not queued")

/-- The keep-alive and its event: whatever fails, the session is disconnected. -/
def keepAliveAndCallback : CommissionerM H (ResultCode × List CommissionerEvent × ResultCode) := do
  let result ← keepAlive
  let (deferredEvents, callbackResult) ← awaitCallback (← get).events.length
  return (result, deferredEvents, callbackResult)

/-- One delivery, as `next_event` takes it. -/
def takeDelivery (delivery : Delivery) (inbox : List Delivery) : CommissionerM H (Option CommissionerEvent) := do
  modify fun c => { c with now := c.now + delivery.elapsed, network := { c.network with inbox } }
  let responseWire ← delivery.data
  let message ← CoapMessage.decode responseWire
  let _ ← handleIncoming none message
  tryRecvQueuedEvent

/-- The loop of `pump_events` from an empty queue, by what arrives. A receive
ends with its own timeout or with the time that remains, and both end the loop,
as a failure does. Events that are queued together are taken together, since
that takes no time. -/
def pumpDeliveries : List Delivery → ℕ → Commissioner H → List CommissionerEvent × Commissioner H
  | [], remaining, c => ([], { c with now := c.now + min remaining meshcopTimeout })
  | delivery :: inbox, remaining, c =>
    let wait := min remaining meshcopTimeout
    if wait < delivery.elapsed then
      ([], { c with
        now := c.now + wait
        network := { c.network with inbox := { delivery with elapsed := delivery.elapsed - wait } :: inbox } })
    else
      match (takeDelivery delivery inbox).run c with
      | .error _ c => ([], c)
      | .ok none c => pumpDeliveries inbox (remaining - delivery.elapsed) c
      | .ok (some event) c =>
        if remaining = delivery.elapsed then ([event], c)
        else
          let (later, pumped) := pumpDeliveries inbox (remaining - delivery.elapsed) { c with events := [] }
          (event :: c.events ++ later, pumped)

def pumpEvents (duration : ℕ) (c : Commissioner H) : List CommissionerEvent × Commissioner H :=
  if duration = 0 then ([], c)
  else if c.dtlsSession = false then (c.events, { c with events := [] })
  else
    let (later, pumped) := pumpDeliveries c.network.inbox duration { c with events := [] }
    (c.events ++ later, pumped)

/-- The update of one field: the Active Timestamp moves on by a second. -/
def setActiveField (dataset : Dataset) : CommissionerM H Unit := do
  let current ← getActiveDataset (flag 15)
  let seconds := match ← activeTimestamp current with
    | some timestamp => timestamp.seconds + 1
    | none => 1
  setActiveDataset (dataset.setRaw tlvActiveTimestamp (Timestamp.fromComponents seconds 0 false).toValue)

end Events

/-- The state of the interpreter. The keep-alive interval is that of the
installed commissioner, which has it in its configuration. The last three fields
are not of the source: the clock, the results of the keep-alives so far, and
whether the time of the next one could once not be represented. -/
structure Repl [Suite] extends Interpreter where
  config : CliConfig
  keepaliveInterval : ℕ
  keepaliveDeadline : Option ℕ
  energyReports : List (IpAddr × UInt32 × Bytes)
  panidConflicts : List (IpAddr × UInt32 × UInt16)
  shouldExit : Bool
  now : ℕ
  keepAlives : List (Except Error ResultCode)
  overflowed : Bool

/-- What a connection that is opened will meet. -/
structure Dial [Suite] where
  socket : Except Error Unit
  rng : Rng
  network : Network

/-- What happens next to the loop, and what the commissioner meets from then on:
a line is read, or the time of the keep-alive has come. -/
structure Turn [Suite] where
  elapsed : ℕ
  network : Network
  dial : Dial
  input : Option (List Char)

/-- What is printed. -/
inductive Output
  | value (value : CommandValue)
  | keepAliveFailed (e : Error)

namespace Repl

variable [Suite]

def new (config : CliConfig) (now : ℕ) : Repl where
  commissioner := none
  joinerPskds := []
  joinerAllPskd := none
  config := config
  keepaliveInterval := 0
  keepaliveDeadline := none
  energyReports := []
  panidConflicts := []
  shouldExit := false
  now := now
  keepAlives := []
  overflowed := false

section Keepalives

variable (cli : Repl)

def resume (interpreter : Interpreter) : Repl :=
  { cli with
    toInterpreter := interpreter
    now := (interpreter.commissioner.map (·.now)).getD cli.now }

def perform {α : Type} (commissioner : Commissioner StaticJoinerHandler) (operation : CommissionerM StaticJoinerHandler α) :
    Except Error α × Repl :=
  let (result, interpreter) := cli.toInterpreter.perform commissioner operation
  (result, cli.resume interpreter)

def recordEvent : CommissionerEvent → Repl
  | .energyReport peerAddr channelMask energyList =>
    { cli with energyReports := cli.energyReports ++ [(peerAddr, channelMask, energyList)] }
  | .panIdConflict peerAddr channelMask panId =>
    { cli with panidConflicts := cli.panidConflicts ++ [(peerAddr, channelMask, panId)] }
  | _ => cli

def disconnect : Repl := { cli with commissioner := cli.commissioner.map disconnected }

def scheduleKeepalive [Instants] : Repl :=
  match cli.commissioner with
  | none => { cli with keepaliveDeadline := none }
  | some commissioner =>
    if commissioner.state = .active then
      let deadline := checkedAdd cli.now cli.keepaliveInterval
      { cli with keepaliveDeadline := deadline, overflowed := cli.overflowed || deadline.isNone }
    else { cli with keepaliveDeadline := none }

def concludeKeepalive [Instants] (result : ResultCode) (deferredEvents : List CommissionerEvent) (callbackResult : ResultCode) :
    Except Error Unit × Repl :=
  let cli := deferredEvents.foldl recordEvent cli
  if callbackResult ≠ result then (.error (.invalidState "keep-alive result and callback did not match"), cli.disconnect)
  else
    match result with
    | .accept => (.ok (), cli.scheduleKeepalive)
    | .pending => (.error (.invalidState "scheduled keep-alive response is pending"), cli.disconnect)
    | .reject => (.error (.invalidState "scheduled keep-alive was rejected"), cli.disconnect)

def handleScheduledKeepalive [Instants] : Except Error Unit × Repl :=
  let cli := { cli with keepaliveDeadline := none }
  match cli.commissioner with
  | none => (.error (.invalidState "commissioner is not started"), cli)
  | some commissioner =>
    if commissioner.state ≠ .active then (.error (.invalidState "commissioner session is not active"), cli)
    else
      let cli := { cli with keepAlives := cli.keepAlives ++ [outcome (keepAlive.run commissioner)] }
      match cli.perform commissioner keepAliveAndCallback with
      | (.error e, cli) => (.error e, cli.disconnect)
      | (.ok (result, deferredEvents, callbackResult), cli) =>
        cli.concludeKeepalive result deferredEvents callbackResult

def refreshKeepaliveBeforeCommand [Instants] (tokens : List Text) : Except Error Unit × Repl :=
  if commandMayWaitForCommissioner tokens = false then (.ok (), cli)
  else
    match cli.keepaliveDeadline with
    | none => (.ok (), cli)
    | some deadline =>
      let startsReplacement := tokens.head?.bind Command.named = some .start
      if ¬ startsReplacement ∧ commandKeepaliveHeadroom < deadline - cli.now then (.ok (), cli)
      else cli.handleScheduledKeepalive

end Keepalives

section Commands

variable (cli : Repl)

def ifConnected (next : CommandValue × Repl) : CommandValue × Repl :=
  match cli.commissioner with
  | none => (.fail notConnected, cli)
  | some _ => next

def report {α : Type} (operation : CommissionerM StaticJoinerHandler α) (render : α → CommandValue) : CommandValue × Repl :=
  match cli.commissioner with
  | none => (.fail notConnected, cli)
  | some commissioner =>
    match cli.perform commissioner operation with
    | (.ok a, cli) => (render a, cli)
    | (.error e, cli) => (.failedWith e, cli)

def finish (operation : CommissionerM StaticJoinerHandler Unit) : CommandValue × Repl := cli.report operation fun _ => .done

def failing (message : Bytes) : CommandValue × Repl := (.fail message, cli)

def pump (duration : ℕ) : Repl :=
  match cli.commissioner with
  | none => cli
  | some commissioner =>
    let (events, pumped) := pumpEvents duration commissioner
    events.foldl recordEvent (cli.resume { cli.toInterpreter with commissioner := some pumped })

/-- An operation that is answered by events: it is over when they have been
collected for three seconds. -/
def finishAndPump (operation : CommissionerM StaticJoinerHandler Unit) : CommandValue × Repl :=
  match cli.finish operation with
  | (value, cli) => if value.failed then (value, cli) else (value, cli.pump (3 * 10 ^ 9))

def cmdHelp : List Text → CommandValue
  | [] =>
    let names := (commands.map (·.1)).mergeSort
    .ok (names.flatMap (fun name => ascii name ++ ascii "\n") ++ ascii "\ntype 'help <command>' for help of specific command.")
  | name :: _ =>
    match commands.find? fun entry => Spells name entry.1 with
    | some (_, usage) => .ok (ascii "usage:\n" ++ ascii ("\n".intercalate usage))
    | none => .fail (around "" name " is not a valid command")

def cmdState : CommandValue :=
  match (cli.commissioner.map (·.state)).getD .disabled with
  | .disabled => .ok (ascii "disabled")
  | .connected => .ok (ascii "connected")
  | .petitioning => .ok (ascii "petitioning")
  | .active => .ok (ascii "active")

def cmdActive : CommandValue :=
  if cli.commissioner.map (·.state) = some .active then .ok (ascii "true") else .ok (ascii "false")

def cmdSessionid : CommandValue :=
  match cli.commissioner.bind (·.sessionId) with
  | some id => .ok (ascii (toString id.toNat))
  | none => .fail (ascii "commissioner session is not active")

/-- A new commissioner replaces the old one once its petition is over, however
that has ended. -/
def cmdStart [ConsoleTexts] [Instants] (dial : Dial) (tokens : List Text) : CommandValue × Repl :=
  match tokens with
  | _ :: host :: port :: _ =>
    let connectOnly := tokens.any (Spells · "--connect-only")
    match ConsoleTexts.parseSocketAddr (host.bytes ++ ascii ":" ++ port.bytes) with
    | none => cli.failing (ascii "invalid border-agent address '" ++ host.bytes ++ ascii ":" ++ port.bytes ++ ascii "'")
    | some address =>
      match cli.config.toCommissionerConfig with
      | .error e => (.failedWith e, cli)
      | .ok config =>
        match connect config dial.socket address cli.now dial.rng dial.network with
        | .error e => (.failedWith e, cli)
        | .ok commissioner =>
          let commissioner := finalState ((setJoinerHandler cli.buildJoinerHandler).run commissioner)
          let petitioned := (if connectOnly then pure () else do let _ ← petition config).run commissioner
          let cli := { cli with
            keepaliveDeadline := none
            commissioner := some (finalState petitioned)
            now := (finalState petitioned).now
            keepaliveInterval := config.keepaliveInterval }
          (.ofResult (outcome petitioned), cli.scheduleKeepalive)
  | _ => cli.failing syntaxFewArgs

/-- The deadline is gone before the session is resigned, and the commissioner
afterwards, however that has ended. -/
def cmdStop : CommandValue × Repl :=
  let cli := { cli with keepaliveDeadline := none }
  match cli.commissioner with
  | none => (.done, cli)
  | some commissioner =>
    let (result, cli) := cli.perform commissioner resign
    (.ofResult result, { cli with commissioner := none })

def cmdConfig [Hex] : List Text → CommandValue × Repl
  | action :: property :: rest =>
    if ¬ Spells property "pskc" ∧ ¬ Spells property "admincode" then
      cli.failing (around "" property " is not a valid property")
    else if Spells action "get" then
      if Spells property "admincode" then (.ok cli.config.adminCode.bytes, cli)
      else (.ok (Hex.encode cli.config.pskc).bytes, cli)
    else if Spells action "set" then
      match rest with
      | [] => cli.failing syntaxFewArgs
      | value :: _ =>
        if Spells property "admincode" then
          (.done, { cli with config := { cli.config with adminCode := value, pskc := value.bytes } })
        else
          match Hex.decode (trim value.bytes) with
          | .ok pskc => (.done, { cli with config := { cli.config with pskc } })
          | .error e => cli.failing (ascii "invalid PSKc hex: " ++ ascii e)
    else cli.failing (around "" action " is not a valid sub-command")
  | _ => cli.failing syntaxFewArgs

def cmdBorderAgent : List Text → CommandValue × Repl
  | [] => cli.failing syntaxFewArgs
  | subcommand :: rest =>
    if Spells subcommand "discover" then
      cli.failing (ascii "mDNS border-agent discovery is not implemented in this build")
    else if Spells subcommand "get" then
      if rest.head?.map Text.bytes = some (ascii "locator") then
        cli.report (getCommissionerDataset (flag 15)) fun dataset =>
          match dataset.raw tlvBorderAgentLocator with
          | some [hi, lo] => .ok (formatRloc16 (.ofNat (beNat [hi, lo]))).bytes
          | _ => .fail (ascii "border agent locator not present")
      else cli.failing (ascii "only 'borderagent get locator' is supported")
    else cli.failing (around "" subcommand " is not a valid sub-command")

variable [AddressTexts] [ConsoleTexts] [Hex]

/-- A dataset that is given as JSON; what fails is said as its message. -/
def datasetFromText (text : Text) (fromJson : Json → Except Error Dataset) : Except Body Dataset :=
  match ConsoleTexts.fromStr text with
  | .error message => .error (.text message)
  | .ok value => wrapError .error (fromJson value)

def cmdCommDataset : List Text → CommandValue × Repl
  | [] => cli.failing syntaxFewArgs
  | subcommand :: rest =>
    cli.ifConnected <|
      if Spells subcommand "get" then
        cli.report (getCommissionerDataset (.ofNat (2 ^ 64 - 1))) fun dataset =>
          .ok (ConsoleTexts.toStringPretty (commDatasetToJson dataset))
      else if Spells subcommand "set" then
        match rest with
        | [] => cli.failing syntaxFewArgs
        | text :: _ =>
          match datasetFromText text commDatasetFromJson with
          | .error body => (⟨body, true⟩, cli)
          | .ok dataset => cli.finish (setCommissionerDataset dataset)
      else cli.failing (around "" subcommand " is not a valid sub-command")

def cmdBbrDataset : List Text → CommandValue × Repl
  | [] => cli.failing syntaxFewArgs
  | subcommand :: _ =>
    cli.ifConnected <|
      if Spells subcommand "get" then
        cli.report (getBbrDataset (.ofNat (2 ^ 64 - 1))) fun dataset =>
          let members := dataset.entries.map fun entry =>
            let ty := entry.ty.toNat
            (s!"Tlv{ty}", Json.string (Hex.encode entry.value))
          .ok (ConsoleTexts.toStringPretty (.object members))
      else if Spells subcommand "set" then
        cli.failing (ascii "bbrdataset set requires typed BBR TLVs not yet modeled in this build")
      else cli.failing (around "" subcommand " is not a valid sub-command")

/-- The text of one field of the active dataset, if it is present. -/
def fieldText (dataset : Dataset) : OpField → Except Error (Option Bytes)
  | .activetimestamp => do return (← activeTimestamp dataset).map (ConsoleTexts.toStringPretty <| timestampJson ·)
  | .channel => do return (← channel dataset).map (ConsoleTexts.toStringPretty <| channelJson ·)
  | .channelmask => do return (← channelMask dataset).map (ConsoleTexts.toStringPretty <| channelMaskJson ·)
  | .xpanid => do return (← extendedPanId dataset).map (Hex.encode · |>.bytes)
  | .meshLocalPrefix => do return (← dataset.meshLocalPrefix).map (meshLocalPrefixString · |>.bytes)
  | .networkmasterkey => do return (← networkKey dataset).map (Hex.encode · |>.bytes)
  | .networkname => do return (← networkName dataset).map Text.bytes
  | .panid => do return (← panId dataset).map (formatRloc16 · |>.bytes)
  | .pskc => return (dataset.raw tlvPskc).map (Hex.encode · |>.bytes)
  | .securitypolicy => do return (← securityPolicy dataset).map (ConsoleTexts.toStringPretty <| securityPolicyJson ·)

def opDatasetFieldGet (field : Text) : CommandValue × Repl :=
  cli.report (getActiveDataset (.ofNat (2 ^ 64 - 1))) fun dataset =>
    match OpField.named field with
    | none => .fail (around "" field " is not a valid property")
    | some named =>
      match fieldText dataset named with
      | .ok (some value) => .ok value
      | .ok none => .fail (around "" field " is not present in the active dataset")
      | .error e => .failedWith e

def argument (rest : List Text) (i : ℕ) : Text := rest.getD i ⟨[], utf8Valid_nil⟩

def hexArgument (rest : List Text) (i : ℕ) : Except Body Bytes :=
  match Hex.decode (trim (argument rest i).bytes) with
  | .ok bytes => .ok bytes
  | .error e => .error (.text (ascii e))

/-- The dataset with the one field that is set, if it can be set. -/
def fieldDataset (rest : List Text) : OpField → Except Body (Option Dataset)
  | .channel => do
    let page ← okOr (parseU64 (argument rest 0)) (Body.text (ascii "invalid page"))
    let number ← okOr (parseU64 (argument rest 1)) (Body.text (ascii "invalid channel"))
    return some (Dataset.default.setRaw tlvChannel (Channel.toValue ⟨page.toUInt8, number.toUInt16⟩))
  | .xpanid => do return some (Dataset.default.setRaw tlvExtendedPanId (← hexArgument rest 0))
  | .networkmasterkey => do return some (Dataset.default.setRaw tlvNetworkKey (← hexArgument rest 0))
  | .networkname => return some (Dataset.default.setRaw tlvNetworkName (argument rest 0).bytes)
  | .panid => do
    let panid ← wrapError Body.error (parsePanid (argument rest 0))
    return some (Dataset.default.setRaw tlvPanId (beBytes 2 panid.toNat))
  | .pskc => do return some (Dataset.default.setRaw tlvPskc (← hexArgument rest 0))
  | .meshLocalPrefix => do
    return some (Dataset.default.setRaw tlvMeshLocalPrefix (← wrapError Body.error (parseMeshLocalPrefix (argument rest 0))))
  | .securitypolicy => do
    let rotation ← okOr ((rest.head?).bind (parseBelow (2 ^ 16))) (Body.text (ascii "invalid rotation time"))
    let flagBytes ← hexArgument rest 1
    let flags ← okOr (policyFlags flagBytes) (Body.text (ascii "flags must not be empty"))
    return some (Dataset.default.setRaw tlvSecurityPolicy (SecurityPolicy.toValue ⟨.ofNat rotation, flags⟩))
  | .activetimestamp | .channelmask => return none

def opDatasetFieldSet (field : Text) (rest : List Text) : CommandValue × Repl :=
  match (OpField.named field).elim (.ok none) (fieldDataset rest) with
  | .ok (some dataset) => cli.finish (setActiveField dataset)
  | .ok none => cli.failing (around "" field " cannot be set")
  | .error body => (⟨body, true⟩, cli)

def opDatasetWhole (isSet pending : Bool) (rest : List Text) : CommandValue × Repl :=
  if isSet then
    match rest with
    | [] => cli.failing syntaxFewArgs
    | text :: _ =>
      match datasetFromText text (opDatasetFromJson · pending) with
      | .error body => (⟨body, true⟩, cli)
      | .ok dataset => cli.finish (if pending then setPendingDataset dataset else setActiveDataset dataset)
  else
    cli.report (if pending then getPendingDataset (.ofNat (2 ^ 64 - 1)) else getActiveDataset (.ofNat (2 ^ 64 - 1)))
      fun dataset =>
        match opDatasetToJson dataset pending with
        | .ok value => .ok (ConsoleTexts.toStringPretty value)
        | .error e => .failedWith e

def cmdOpDataset : List Text → CommandValue × Repl
  | subcommand :: field :: rest =>
    if ¬ Spells subcommand "get" ∧ ¬ Spells subcommand "set" then
      cli.failing (around "" subcommand " is not a valid sub-command")
    else
      cli.ifConnected <|
        if Spells field "active" ∨ Spells field "pending" then
          cli.opDatasetWhole (Spells subcommand "set") (Spells field "pending") rest
        else if Spells subcommand "set" then cli.opDatasetFieldSet field rest
        else cli.opDatasetFieldGet field
  | _ => cli.failing syntaxFewArgs

/-- The commands to a device differ in how many arguments they need and in
their operation. -/
def cmdManaged (needed : ℕ) (operation : Ipv6Addr → List Text → CommissionerM StaticJoinerHandler Unit) :
    List Text → CommandValue × Repl
  | [] => cli.failing syntaxFewArgs
  | device :: rest =>
    if rest.length + 1 < needed then cli.failing syntaxFewArgs
    else
      match parseAddr device with
      | none => cli.failing (around "invalid device address '" device "'")
      | some dst => cli.finish (operation dst rest)

def cmdReenroll (arguments : List Text) : CommandValue × Repl := cli.cmdManaged 1 (fun dst _ => commandReenroll dst) arguments

def cmdDomainReset (arguments : List Text) : CommandValue × Repl :=
  cli.cmdManaged 1 (fun dst _ => commandDomainReset dst) arguments

def cmdMigrate (arguments : List Text) : CommandValue × Repl :=
  cli.cmdManaged 2 (fun dst rest => commandMigrate dst (argument rest 0)) arguments

def cmdMlr (arguments : List Text) : CommandValue × Repl :=
  if arguments.length < 2 then cli.failing syntaxFewArgs
  else
    match arguments.getLast?.bind (parseBelow (2 ^ 32)) with
    | none => cli.failing (ascii "invalid timeout")
    | some timeout =>
      cli.report (registerMulticastListener arguments.dropLast (.ofNat timeout)) fun status =>
        .ok (ascii (toString status.toNat))

def cmdAnnounce : List Text → CommandValue × Repl
  | mask :: count :: period :: dst :: _ =>
    match parseU32 mask, parseBelow (2 ^ 8) count, parseBelow (2 ^ 16) period, parseAddr dst with
    | some mask, some count, some period, some dst => cli.finish (announceBegin mask (.ofNat count) (.ofNat period) dst)
    | _, _, _, _ => cli.failing (ascii "invalid announce arguments")
  | _ => cli.failing syntaxFewArgs

def panidQuery : List Text → CommandValue × Repl
  | mask :: panid :: dst :: _ =>
    match parseU32 mask, (parsePanid panid).toOption, parseAddr dst with
    | some mask, some panid, some dst => cli.finishAndPump (panIdQuery mask panid dst)
    | _, _, _ => cli.failing (ascii "invalid panid query arguments")
  | _ => cli.failing syntaxFewArgs

/-- `0x{:08x}`. -/
def formatMask (mask : UInt32) : Text := Text.append ⟨ascii "0x", utf8Valid_hexMark⟩ (lowerHexText (beBytes 4 mask.toNat))

def panidConflict : List Text → CommandValue
  | [] => .fail syntaxFewArgs
  | panid :: _ =>
    match parsePanid panid with
    | .error _ => .fail (ascii "invalid panid")
    | .ok panid =>
      let reports := (cli.panidConflicts.filter (·.2.2 = panid)).map fun (peer, mask, p) =>
        Json.object [("Peer", .string (ConsoleTexts.displayIpAddr peer)), ("ChannelMask", .string (formatMask mask)),
          ("PanId", .string (formatRloc16 p))]
      .ok (ConsoleTexts.toStringPretty (.array reports))

def cmdPanid : List Text → CommandValue × Repl
  | [] => cli.failing syntaxFewArgs
  | subcommand :: rest =>
    if Spells subcommand "query" then cli.panidQuery rest
    else if Spells subcommand "conflict" then (cli.panidConflict rest, cli)
    else cli.failing (around "" subcommand " is not a valid sub-command")

def energyScanCommand : List Text → CommandValue × Repl
  | mask :: count :: period :: duration :: dst :: _ =>
    match parseU32 mask, parseBelow (2 ^ 8) count, parseBelow (2 ^ 16) period, parseBelow (2 ^ 16) duration,
      parseAddr dst with
    | some mask, some count, some period, some duration, some dst =>
      cli.finishAndPump (energyScan mask (.ofNat count) (.ofNat period) (.ofNat duration) dst)
    | _, _, _, _, _ => cli.failing (ascii "invalid energy scan arguments")
  | _ => cli.failing syntaxFewArgs

def signedJson (byte : UInt8) : Json :=
  if byte < 0x80 then .nat byte.toNat else .number (.negInt (.ofInt (byte.toNat - 256)))

def energyReport (rest : List Text) : CommandValue :=
  let filter := rest.head?.bind parseAddr
  let reports := (cli.energyReports.filter fun report => filter.all (report.1 = .v6 ·)).map fun (peer, mask, list) =>
    Json.object [("Peer", .string (ConsoleTexts.displayIpAddr peer)), ("ChannelMask", .string (formatMask mask)),
      ("EnergyList", .array (list.map signedJson))]
  .ok (ConsoleTexts.toStringPretty (.array reports))

def cmdEnergy : List Text → CommandValue × Repl
  | [] => cli.failing syntaxFewArgs
  | subcommand :: rest =>
    if Spells subcommand "scan" then cli.energyScanCommand rest
    else if Spells subcommand "report" then (cli.energyReport rest, cli)
    else cli.failing (around "" subcommand " is not a valid sub-command")

def netDiagJson (data : NetDiagData) : Json :=
  .object (member "ExtAddress" (data.extMacAddr.map (.string <| Hex.encode ·)) ++
    member "Rloc16" (data.macAddr.map (.string <| formatRloc16 ·)) ++
    member "LeaderData" (data.leaderData.map fun leader => .object [("PartitionId", .nat leader.partitionId.toNat),
      ("LeaderRouterId", .nat leader.routerId.toNat)]) ++
    member "Route64Routers" (data.route64.map (.nat ·.routeData.length)) ++
    member "Addresses" (data.addresses.map (.array <| ·.map (.string <| AddressTexts.display ·))))

def defaultNetdiagFlags : UInt64 :=
  DiagFlags.extMacAddr ||| DiagFlags.macAddr ||| Collectors.DiagFlags.mode ||| Collectors.DiagFlags.connectivity |||
    Collectors.DiagFlags.route64 ||| Collectors.DiagFlags.leaderData

def netdiagQuery (flags : UInt64) (address : Text) : CommandValue × Repl :=
  match parseAddr address with
  | none => cli.failing (around "invalid address '" address "'")
  | some dst => cli.report (getDiagnostics dst flags) fun data => .ok (ConsoleTexts.toStringPretty (netDiagJson data))

def netdiagReset : List Text → CommandValue × Repl
  | what :: address :: _ =>
    if ¬ Spells what "maccounters" then cli.failing (ascii "only 'netdiag reset maccounters <addr>' supported")
    else
      match parseAddr address with
      | none => cli.failing (around "invalid address '" address "'")
      | some dst => cli.finish (diagnosticReset (some dst) Collectors.DiagFlags.macCounters)
  | _ => cli.failing (ascii "only 'netdiag reset maccounters <addr>' supported")

def cmdNetdiag : List Text → CommandValue × Repl
  | subcommand :: first :: rest =>
    cli.ifConnected <|
      if Spells subcommand "query" then
        match rest with
        | [] => cli.netdiagQuery defaultNetdiagFlags first
        | address :: _ =>
          if Spells first "extaddr" then cli.netdiagQuery DiagFlags.extMacAddr address
          else if Spells first "rloc16" then cli.netdiagQuery DiagFlags.macAddr address
          else cli.failing (around "" first " is not a valid type")
      else if Spells subcommand "reset" then cli.netdiagReset (first :: rest)
      else cli.failing (around "" subcommand " is not a valid sub-command")
  | _ => cli.failing syntaxFewArgs

def cmdJoiner (tokens : List Text) : CommandValue × Repl :=
  let (value, interpreter) := Interpreter.cmdJoiner tokens cli.toInterpreter
  (value, cli.resume interpreter)

end Commands

section Loop

variable [AddressTexts] [ConsoleTexts] [Hex] [Instants] (cli : Repl)

def dispatch (dial : Dial) (name : Text) (arguments : List Text) : CommandValue × Repl :=
  match Command.named name with
  | some .help => (cmdHelp arguments, cli)
  | some .exit => (.done, { cli with shouldExit := true })
  | some .config => cli.cmdConfig arguments
  | some .state => (cli.cmdState, cli)
  | some .start => cli.cmdStart dial (name :: arguments)
  | some .stop => cli.cmdStop
  | some .active => (cli.cmdActive, cli)
  | some .sessionid => (cli.cmdSessionid, cli)
  | some .borderagent => cli.cmdBorderAgent arguments
  | some .joiner => cli.cmdJoiner (name :: arguments)
  | some .commdataset => cli.cmdCommDataset arguments
  | some .opdataset => cli.cmdOpDataset arguments
  | some .bbrdataset => cli.cmdBbrDataset arguments
  | some .reenroll => cli.cmdReenroll arguments
  | some .domainreset => cli.cmdDomainReset arguments
  | some .migrate => cli.cmdMigrate arguments
  | some .mlr => cli.cmdMlr arguments
  | some .announce => cli.cmdAnnounce arguments
  | some .panid => cli.cmdPanid arguments
  | some .energy => cli.cmdEnergy arguments
  | some .netdiag => cli.cmdNetdiag arguments
  | some .token => cli.failing (ascii "CCM token support is not implemented in this build")
  | some .registry => cli.failing (ascii "the persistent network registry is not implemented in this build")
  | none => cli.failing (around "'" name "' is not a valid command, type 'help' to list all commands")

def evaluateAndPrint (dial : Dial) (line : List Char) : Option Output × Repl :=
  match tokenize line with
  | .error message => (some (.value (.fail message)), cli)
  | .ok [] => (none, cli)
  | .ok (first :: others) =>
    let name := textOf first
    let arguments := others.map textOf
    if hasMultiNetworkFlag (name :: arguments) then
      (some (.value (.fail (ascii
        "multi-network selectors (--nwk/--dom) require the network registry, which is not implemented in this build"))), cli)
    else
      match cli.refreshKeepaliveBeforeCommand (name :: arguments) with
      | (.error e, cli) => (some (.keepAliveFailed e), cli)
      | (.ok (), cli) =>
        let (value, cli) := cli.dispatch dial name arguments
        (some (.value value), cli)

/-- Time has passed, and what the commissioner will meet is known. -/
def arrive (turn : Turn) : Repl :=
  { cli with
    now := cli.now + turn.elapsed
    commissioner := cli.commissioner.map fun c => { c with now := cli.now + turn.elapsed, network := turn.network } }

/-- One round of the loop of `run`. The time of a keep-alive comes only while
there is a deadline. -/
def turn (turn : Turn) : Option Output × Repl :=
  if cli.shouldExit then (none, cli)
  else
    match turn.input, cli.keepaliveDeadline with
    | some line, _ => (cli.arrive turn).evaluateAndPrint turn.dial line
    | none, none => (none, cli)
    | none, some _ =>
      match (cli.arrive turn).handleScheduledKeepalive with
      | (.error e, cli) => (some (.keepAliveFailed e), cli)
      | (.ok (), cli) => (none, cli)

def after (turns : List Turn) : Repl := turns.foldl (fun cli turn => (cli.turn turn).2) cli

end Loop

end Repl

end ThreadCommissioner.Interpreters
