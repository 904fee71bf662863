import FilterBridge.FilePath
import FilterBridge.FrameQueue
import FilterBridge.IpAddress
import FilterBridge.Json
import FilterBridge.Verdict

/-!
# Configuration

The configuration is a JSON object.  A field that is missing has its default; a
field that is not known does not count.  Links have no default for one end when
the other is given.

## Main definitions

* `Config` — all settings, with `ManagementConfig` and `LinkConfig` inside.
* `Options.ofJson?`, `Config.ofJson?` — settings from JSON.
* `Options.toJson`, `Config.toJson` — settings as JSON.
* `Config.load`, `Config.saved` — the configuration in the bytes of a file, and
  the text of a file that holds it.
* `ConfigError` — why the program cannot be set up.
-/

namespace FilterBridge

/-! ### Settings -/

/-- Where the filter is managed from. -/
structure ManagementConfig where
  /-- The address to listen on. -/
  bind : SocketAddress := .v4 0 7100
  /-- The hosts that may manage; none listed means that all may. -/
  managers : List IpAddress := []
  deriving DecidableEq, Repr, Inhabited

/-- The two ends of a link that carries frames. -/
structure LinkConfig where
  /-- The near end. -/
  bind : SocketAddress
  /-- The far end. -/
  peer : SocketAddress
  deriving DecidableEq, Repr, Inhabited

/-- The address of the host itself. -/
def localhost : Address := 0x7f000001

/-- All settings. -/
structure Config where
  /-- The directory of the persisted tables. -/
  dataDir : FilePath := .ofText "/var/lib/drawbridge"
  /-- The file of the password. -/
  passwordFile : FilePath := .ofText "/etc/drawbridge/password"
  /-- Management. -/
  management : ManagementConfig := {}
  /-- The link to the protected segment. -/
  inside : LinkConfig := ⟨.v4 localhost 7101, .v4 localhost 7201⟩
  /-- The link to the untrusted segment. -/
  outside : LinkConfig := ⟨.v4 localhost 7102, .v4 localhost 7202⟩
  /-- How many frames may wait. -/
  queueDepth : Nat := FrameQueue.defaultDepth
  /-- How long a restart waits, in milliseconds. -/
  rebootDelayMs : Nat := 2000
  /-- The capacity of the arena. -/
  arenaBytes : Nat := 4194304
  /-- How strict the filter is. -/
  filter : Options := {}
  deriving DecidableEq, Repr, Inhabited

/-- Why the program cannot be set up. -/
inductive ConfigError
  /-- A socket cannot be bound. -/
  | bind (what : String) (address : SocketAddress) (cause : String)
  /-- The configuration is invalid. -/
  | invalid (text : String)
  /-- A file cannot be used. -/
  | io (text : String)
  deriving DecidableEq, Repr, Inhabited

/-- The text of a configuration error. -/
def ConfigError.message : ConfigError → String
  | bind what address cause => s!"cannot bind {what} socket {address.text}: {cause}"
  | invalid text => "config error: " ++ text
  | io text => "IO error: " ++ text

/-- Whether an address may manage the filter. -/
def ManagementConfig.isManager (m : ManagementConfig) (a : IpAddress) : Bool :=
  m.managers.isEmpty || m.managers.contains a

/-- How long a restart waits, in microseconds. -/
def Config.rebootDelayMicros (c : Config) : Nat := c.rebootDelayMs * 1000

/-- Whether two configurations agree, paths being compared by their components. -/
def Config.agrees (c d : Config) : Bool :=
  c.dataDir.same d.dataDir && c.passwordFile.same d.passwordFile &&
    { c with dataDir := d.dataDir, passwordFile := d.passwordFile } = d

/-! ### Settings from JSON -/

/-- The value of a field, or its default where the field is missing. -/
def setting? {α : Type} (value : Option Json) (default : α) (read : Json → Option α) : Option α :=
  match value with
  | none => some default
  | some j => read j

/-- The choices for the judging of TCP. -/
def TcpScope.choices : List (String × TcpScope) :=
  [("syn_only", .synOnly), ("every_segment", .everySegment)]

/-- The choices for the judging of UDP. -/
def UdpScope.choices : List (String × UdpScope) :=
  [("allow_all", .allowAll), ("check_out_list", .checkOutList)]

/-- The names of the options, in order. -/
def Options.fieldNames : List String :=
  ["tcp_admission", "outbound_udp", "discard_other", "deny_multicast", "discard_suspect_offset",
    "discard_other_ip"]

/-- Options from JSON. -/
def Options.ofJson? (j : Json) : Option Options := do
  let d : Options := {}
  match ← j.record? fieldNames with
  | [tcp, udp, other, multicast, suspect, otherIp] =>
    return {
      tcpAdmission := ← setting? tcp d.tcpAdmission (Json.choice? TcpScope.choices)
      outboundUdp := ← setting? udp d.outboundUdp (Json.choice? UdpScope.choices)
      discardOther := ← setting? other d.discardOther Json.bool?
      denyMulticast := ← setting? multicast d.denyMulticast Json.bool?
      discardSuspectOffset := ← setting? suspect d.discardSuspectOffset Json.bool?
      discardOtherIp := ← setting? otherIp d.discardOtherIp Json.bool? }
  | _ => none

/-- The options that a text spells. -/
def Options.parse? (text : String) : Option Options := (Json.parse? text).bind ofJson?

/-- A socket address from JSON. -/
def SocketAddress.ofJson? (j : Json) : Option SocketAddress := j.string?.bind parse?

/-- A path from JSON. -/
def FilePath.ofJson? (j : Json) : Option FilePath := j.string?.map ofText

/-- Management settings from JSON. -/
def ManagementConfig.ofJson? (j : Json) : Option ManagementConfig := do
  let d : ManagementConfig := {}
  match ← j.record? ["bind", "managers"] with
  | [bind, managers] =>
    return {
      bind := ← setting? bind d.bind SocketAddress.ofJson?
      managers := ← setting? managers d.managers fun j => do
        (← j.items).mapM fun item => item.string?.bind IpAddress.parse? }
  | _ => none

/-- A link from JSON: both ends have to be there. -/
def LinkConfig.ofJson? (j : Json) : Option LinkConfig := do
  match ← j.record? ["bind", "peer"] with
  | [some bind, some peer] =>
    return ⟨← SocketAddress.ofJson? bind, ← SocketAddress.ofJson? peer⟩
  | _ => none

/-- The names of the settings, in order. -/
def Config.fieldNames : List String :=
  ["data_dir", "password_file", "management", "inside", "outside", "queue_depth",
    "reboot_delay_ms", "arena_bytes", "filter"]

/-- A configuration from JSON. -/
def Config.ofJson? (j : Json) : Option Config := do
  let d : Config := {}
  match ← j.record? fieldNames with
  | [dataDir, passwordFile, management, inside, outside, queueDepth, rebootDelay, arena, filter] =>
    return {
      dataDir := ← setting? dataDir d.dataDir FilePath.ofJson?
      passwordFile := ← setting? passwordFile d.passwordFile FilePath.ofJson?
      management := ← setting? management d.management ManagementConfig.ofJson?
      inside := ← setting? inside d.inside LinkConfig.ofJson?
      outside := ← setting? outside d.outside LinkConfig.ofJson?
      queueDepth := ← setting? queueDepth d.queueDepth Json.nat?
      rebootDelayMs := ← setting? rebootDelay d.rebootDelayMs Json.nat?
      arenaBytes := ← setting? arena d.arenaBytes Json.nat?
      filter := ← setting? filter d.filter Options.ofJson? }
  | _ => none

/-- The configuration in a file with the given bytes; `none` stands for a file
that is not there. -/
def Config.load (file : Option Bytes) : Except ConfigError Config :=
  match file with
  | none => .error (.io "No such file or directory (os error 2)")
  | some bytes =>
    match String.fromUTF8? ⟨bytes.toArray⟩ with
    | none => .error (.io "stream did not contain valid UTF-8")
    | some text =>
      match (Json.parse? text).bind ofJson? with
      | none => .error (.invalid "not a configuration")
      | some c => .ok c

/-! ### Settings as JSON -/

/-- The name of a choice. -/
def choiceName {α : Type} [DecidableEq α] (choices : List (String × α)) (a : α) : String :=
  ((choices.find? (·.2 = a)).map (·.1)).getD ""

/-- Options as JSON, in order. -/
def Options.toJson (o : Options) : Json :=
  .ofFields [
    ("tcp_admission", .ofString (choiceName TcpScope.choices o.tcpAdmission)),
    ("outbound_udp", .ofString (choiceName UdpScope.choices o.outboundUdp)),
    ("discard_other", .bool o.discardOther),
    ("deny_multicast", .bool o.denyMulticast),
    ("discard_suspect_offset", .bool o.discardSuspectOffset),
    ("discard_other_ip", .bool o.discardOtherIp)]

/-- A link as JSON. -/
def LinkConfig.toJson (l : LinkConfig) : Json :=
  .ofFields [("bind", .ofString l.bind.text), ("peer", .ofString l.peer.text)]

/-- A configuration as JSON, in order. -/
def Config.toJson (c : Config) : Json :=
  .ofFields [
    ("data_dir", .ofString c.dataDir.text),
    ("password_file", .ofString c.passwordFile.text),
    ("management", .ofFields [
      ("bind", .ofString c.management.bind.text),
      ("managers", .array (c.management.managers.map fun a => .ofString a.text))]),
    ("inside", c.inside.toJson),
    ("outside", c.outside.toJson),
    ("queue_depth", .ofNat c.queueDepth),
    ("reboot_delay_ms", .ofNat c.rebootDelayMs),
    ("arena_bytes", .ofNat c.arenaBytes),
    ("filter", c.filter.toJson)]

/-- The text of a file that holds a configuration. -/
def Config.saved (c : Config) : String := c.toJson.pretty

end FilterBridge
