import Amqp.Decimal.Shortest
import Amqp.Settings
import Amqp.Settings.Json

/-!
# Reading settings

Settings are read from a tree.  A scalar is converted to the kind of its setting where that makes
sense: words such as `on` and `no` are flags, flags are numbers, texts of digits are numbers, and
numbers are texts.  A group may also be given as a row of its values in order.  Unknown names are
ignored and missing ones take their defaults; a value that can not be converted spoils the whole.
`Settings.load` reads a document with the variables of the environment laid over it.
-/

namespace Amqp.Settings

/-! ## Conversions -/

namespace Tree

/-- The flag that a word stands for. -/
def flagWord? (s : String) : Option Bool :=
  match s.toLower with
  | "true" | "on" | "yes" => some true
  | "false" | "off" | "no" => some false
  | _ => none

/-- The number that digits stand for, behind a plus sign or not. -/
def ofDecimal? (s : String) : Option Nat :=
  let ds :=
    match s.toList with
    | '+' :: ds => ds
    | ds => ds
  if ds.isEmpty || !ds.all Char.isDigit then none else some (Nat.ofDigitChars 10 ds 0)

/-- A whole number below `bound`, which is at most `2 ^ 64`.  Fractions are rounded. -/
def natural? (bound : Nat) (t : Tree) : Option Nat :=
  let n :=
    match t with
    | bool b => some b.toNat
    | int n => if 0 ≤ n then some n.toNat else none
    | float x => some x.round.toUInt64.toNat
    | text s =>
      match flagWord? s with
      | some b => some b.toNat
      | none => ofDecimal? s
    | _ => none
  n.filter fun n => n < bound

/-- A whole number of 8 bits. -/
def uint8? (t : Tree) : Option UInt8 := (t.natural? UInt8.size).map UInt8.ofNat

/-- A whole number of 16 bits. -/
def uint16? (t : Tree) : Option UInt16 := (t.natural? UInt16.size).map UInt16.ofNat

/-- A whole number of 32 bits. -/
def uint32? (t : Tree) : Option UInt32 := (t.natural? UInt32.size).map UInt32.ofNat

/-- A whole number of 64 bits. -/
def uint64? (t : Tree) : Option UInt64 := (t.natural? UInt64.size).map UInt64.ofNat

/-- A flag. -/
def flag? : Tree → Option Bool
  | bool b => some b
  | int n => some (n != 0)
  | float x => some (x != 0)
  | text "1" => some true
  | text "0" => some false
  | text s => flagWord? s
  | _ => none

/-- A text. -/
def string? : Tree → Option String
  | text s => some s
  | bool b => some (if b then "true" else "false")
  | int n => some (toString n)
  | float x => some (Decimal.binary64.classify x.toBits.toNat).plain
  | _ => none

/-- A list of texts. -/
def strings? : Tree → Option (List String)
  | row items => items.mapM string?
  | _ => none

/-- A setting that may be absent, which null says. -/
def optional {α : Type} (convert : Tree → Option α) : Tree → Option (Option α)
  | null => some none
  | t => (convert t).map some

end Tree

open Amqp.Settings.Tree

/-! ## Groups -/

/-- The values of a group that are still to be read. -/
inductive Group where
  | named (entries : List (String × Tree))
  | inOrder (items : List Tree)

/-- A reader of a group. -/
abbrev Reading (α : Type) := StateT Group Option α

/-- Reads the next setting, by its name or by its place. -/
def setting {α : Type} (name : String) (convert : Tree → Option α) (default : α) : Reading α
  | .named entries =>
    match entries.lookup name with
    | none => some (default, .named entries)
    | some t => (convert t).map (·, .named entries)
  | .inOrder [] => some (default, .inOrder [])
  | .inOrder (t :: rest) => (convert t).map (·, .inOrder rest)

/-- Reads a group. -/
def ofGroup {α : Type} (read : Reading α) : Tree → Option α
  | .group entries => (read (.named entries)).map Prod.fst
  | .row items => (read (.inOrder items)).map Prod.fst
  | _ => none

/-- Reads the socket options. -/
def Socket.ofTree? : Tree → Option Socket :=
  ofGroup do
    return {
      keepalive := ← setting "keepalive" (optional flag?) none
      nodelay := ← setting "nodelay" (optional flag?) none
      lingerSeconds := ← setting "linger_secs" (optional uint64?) none
      receiveBufferSize := ← setting "recv_buffer_size" (optional uint32?) none
      sendBufferSize := ← setting "send_buffer_size" (optional uint32?) none }

/-- Reads the options of an encrypted transport. -/
def Tls.ofTree? : Tree → Option Tls :=
  ofGroup do
    return {
      version := ← setting "version" (optional string?) none
      verify := ← setting "verify" flag? true
      checkHostname := ← setting "check_hostname" flag? true
      certificateFile := ← setting "certfile" (optional string?) none
      keyFile := ← setting "keyfile" (optional string?) none
      authorityFile := ← setting "cafile" (optional string?) none }

/-- Reads the settings of the transport. -/
def Transport.ofTree? : Tree → Option Transport :=
  ofGroup do
    let d : Transport := {}
    return {
      host := ← setting "host" string? d.host
      port := ← setting "port" uint16? d.port
      connectTimeout := ← setting "connect_timeout_ms" (optional uint64?) none
      readTimeout := ← setting "read_timeout_ms" (optional uint64?) none
      writeTimeout := ← setting "write_timeout_ms" (optional uint64?) none
      toleratesInterrupt := ← setting "raise_on_initial_eintr" flag? d.toleratesInterrupt
      socket := ← setting "socket" Socket.ofTree? d.socket
      tls := ← setting "tls" (optional Tls.ofTree?) none }

/-- Reads the settings of the connection. -/
def Connection.ofTree? : Tree → Option Connection :=
  ofGroup do
    let d : Connection := {}
    return {
      containerId := ← setting "container_id" (optional string?) none
      hostname := ← setting "hostname" (optional string?) none
      maxFrameSize := ← setting "max_frame_size" uint32? d.maxFrameSize
      channelMax := ← setting "channel_max" uint16? d.channelMax
      idleWait := ← setting "idle_wait_time_ms" uint64? d.idleWait
      closeTimeout := ← setting "close_timeout_ms" uint64? d.closeTimeout }

/-- Reads the settings of a session. -/
def Session.ofTree? : Tree → Option Session :=
  ofGroup do
    let d : Session := {}
    return {
      nextOutgoingId := ← setting "next_outgoing_id" uint32? d.nextOutgoingId
      incomingWindow := ← setting "incoming_window" uint32? d.incomingWindow
      outgoingWindow := ← setting "outgoing_window" uint32? d.outgoingWindow
      handleMax := ← setting "handle_max" uint32? d.handleMax
      offeredCapabilities := ← setting "offered_capabilities" (optional strings?) none
      desiredCapabilities := ← setting "desired_capabilities" (optional strings?) none
      allowPipelinedOpen := ← setting "allow_pipelined_open" flag? d.allowPipelinedOpen }

/-- Reads the settings of a link. -/
def Link.ofTree? : Tree → Option Link :=
  ofGroup do
    let d : Link := {}
    return {
      prefetch := ← setting "prefetch" uint32? d.prefetch
      autoAccept := ← setting "auto_accept" flag? d.autoAccept
      sendTimeout := ← setting "send_timeout_ms" (optional uint64?) none
      maxMessageSize := ← setting "max_message_size" (optional uint64?) none
      senderSettleMode := ← setting "snd_settle_mode" uint8? d.senderSettleMode
      receiverSettleMode := ← setting "rcv_settle_mode" uint8? d.receiverSettleMode }

/-- Reads the settings of a client. -/
def ofTree? : Tree → Option Settings :=
  ofGroup do
    return {
      transport := ← setting "transport" Transport.ofTree? {}
      connection := ← setting "connection" Connection.ofTree? {}
      session := ← setting "session" Session.ofTree? {}
      link := ← setting "link" Link.ofTree? {} }

/-! ## Documents and the environment -/

/-- The key of an environment variable: its name in lower case behind the prefix and two
underscores, with a dot for every two further underscores. -/
def variableKey? (lead name : String) : Option String :=
  let lead := Step.lowerCase (lead ++ "__")
  let name := Step.lowerCase name
  if lead.toList.isPrefixOf name.toList then
    some (String.intercalate "." (((name.drop lead.length).toString).splitOn "__"))
  else none

/-- Lays a value over the tree, where its key leads to. -/
def layer (root : Tree) (key : String) (v : Tree) : Tree := Tree.set v (Path.ofKey key) root

/-- The settings in a document, if there is one, with the environment variables behind a prefix laid
over them as texts. -/
def load (document : Option String) (lead : String) (environment : List (String × String)) :
    Except Fault Settings :=
  let settings? : Option Settings := do
    let .group entries ← Tree.ofJson? (← document) | none
    let root := entries.foldl (fun root (key, v) => layer root key v) (.group [])
    let root := environment.foldl
      (fun root (name, v) =>
        match variableKey? lead name with
        | some key => layer root key (.text v)
        | none => root)
      root
    ofTree? root
  match settings? with
  | some settings => .ok settings
  | none => .error .configFile

end Amqp.Settings
