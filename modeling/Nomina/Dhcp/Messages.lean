import Nomina.Db.Tables
import Nomina.Lib.Bytes

/-!
# DHCP messages

The parsed messages of `dhcp/v4.rs` and `dhcp/v6.rs` with the accessors the server uses, and the
replies it sends. A reply is kept as the arguments it is built from.
-/

namespace Nomina

open Lib

/-- `{:02x}` of a byte. -/
def hexByte (b : UInt8) : Str :=
  [(b.toNat / 16).digitChar, (b.toNat % 16).digitChar]

/-- The text of some bytes, if they are UTF-8. -/
def utf8 (v : Bytes) : Option Str :=
  (String.fromUTF8? ⟨v.toArray⟩).map String.toList

/-! ## DHCPv4 -/

/-- The message type of option 53. -/
inductive Dhcp4MessageType
  | Discover | Offer | Request | Decline | Ack | Nak | Release | Inform
deriving DecidableEq

/-- `Dhcp4MessageType::from_u8`. -/
def Dhcp4MessageType.fromU8 (v : UInt8) : Option Dhcp4MessageType :=
  match v.toNat with
  | 1 => some .Discover
  | 2 => some .Offer
  | 3 => some .Request
  | 4 => some .Decline
  | 5 => some .Ack
  | 6 => some .Nak
  | 7 => some .Release
  | 8 => some .Inform
  | _ => none

/-- A parsed DHCPv4 message. -/
structure Dhcp4Message where
  op : UInt8
  htype : UInt8
  hlen : UInt8
  hops : UInt8
  xid : UInt32
  secs : UInt16
  flags : UInt16
  ciaddr : Ipv4Addr
  yiaddr : Ipv4Addr
  siaddr : Ipv4Addr
  giaddr : Ipv4Addr
  chaddr : Octets 16
  sname : Octets 64
  file : Octets 128
  options : List (UInt8 × Bytes)
deriving DecidableEq

namespace Dhcp4Message

/-- `Dhcp4Message::option`. -/
def option (m : Dhcp4Message) (code : UInt8) : Option Bytes :=
  (m.options.find? (·.1 == code)).map Prod.snd

/-- `Dhcp4Message::message_type`. -/
def messageType (m : Dhcp4Message) : Option Dhcp4MessageType :=
  ((m.option 53).bind List.head?).bind Dhcp4MessageType.fromU8

/-- `ipv4_from`. -/
def ipv4From (v : Bytes) : Option Ipv4Addr :=
  match v with
  | [a, b, c, d] => some (BitVec.ofNat 32 (ofDigitsBE 256 [a.toNat, b.toNat, c.toNat, d.toNat]))
  | _ => none

/-- `Dhcp4Message::requested_ip`. -/
def requestedIp (m : Dhcp4Message) : Option Ipv4Addr :=
  (m.option 50).bind ipv4From

/-- `Dhcp4Message::client_id`. -/
def clientId (m : Dhcp4Message) : Option Bytes :=
  m.option 61

/-- `Dhcp4Message::hostname`. -/
def hostname (m : Dhcp4Message) : Option Str :=
  ((m.option 12).bind utf8).map (trimEndMatches (Char.ofNat 0))

/-- `Dhcp4Message::client_mac`. -/
def clientMac (m : Dhcp4Message) : Str :=
  join [':'] ((m.chaddr.val.take (min m.hlen.toNat 16)).map hexByte)

end Dhcp4Message

/-- `v4_client_id`: option 61 in hexadecimal, else the hardware address. -/
def v4ClientId (m : Dhcp4Message) : Str :=
  match m.clientId with
  | some id => if id.isEmpty then m.clientMac else id.flatMap hexByte
  | none => m.clientMac

/-- A hexadecimal digit is its own lowercase form. -/
lemma toLower_digitChar {d : ℕ} (hd : d < 16) : d.digitChar.toLower = d.digitChar := by
  revert d
  decide

/-- The hexadecimal digits of a byte are in lowercase. -/
lemma toAsciiLowercase_hexByte (b : UInt8) : toAsciiLowercase (hexByte b) = hexByte b := by
  have hb := b.toNat_lt
  unfold hexByte toAsciiLowercase
  simp only [List.map_cons, List.map_nil]
  rw [toLower_digitChar (by omega), toLower_digitChar (by omega)]

/-- The identifier of a DHCPv4 client is in lowercase. -/
lemma toAsciiLowercase_v4ClientId (m : Dhcp4Message) :
    toAsciiLowercase (v4ClientId m) = v4ClientId m := by
  have hmac : toAsciiLowercase m.clientMac = m.clientMac := by
    unfold Dhcp4Message.clientMac
    rw [toAsciiLowercase_join, List.map_map]
    exact congrArg (join _) (List.map_congr_left fun b _ => toAsciiLowercase_hexByte b)
  unfold v4ClientId
  split
  · split
    · exact hmac
    · unfold toAsciiLowercase
      rw [List.map_flatMap]
      exact congrArg (List.flatMap · _) (funext toAsciiLowercase_hexByte)
  · exact hmac

/-! ## DHCPv6 -/

/-- DHCPv6 message types. -/
inductive Dhcp6MessageType
  | Solicit | Advertise | Request | Confirm | Renew | Rebind | Reply | Release | Decline
  | InformationRequest
deriving DecidableEq

/-- A parsed DHCPv6 message. -/
structure Dhcp6Message where
  msgType : Dhcp6MessageType
  transactionId : Octets 3
  options : List (UInt16 × Bytes)
deriving DecidableEq

namespace Dhcp6Message

/-- `Dhcp6Message::option`. -/
def option (m : Dhcp6Message) (code : UInt16) : Option Bytes :=
  (m.options.find? (·.1 == code)).map Prod.snd

/-- `Dhcp6Message::client_duid`. -/
def clientDuid (m : Dhcp6Message) : Option Str :=
  (m.option 1).map fun v => v.flatMap hexByte

end Dhcp6Message

/-- `v6_fqdn`: the first label of the Client FQDN option. -/
def v6Fqdn (m : Dhcp6Message) : Option Str :=
  match m.option 39 with
  | some (_ :: len :: labels) =>
    if len.toNat = 0 ∨ labels.length < len.toNat then none else utf8 (labels.take len.toNat)
  | _ => none

/-! ## Replies -/

/-- The arguments of `build_v4_reply`. -/
structure V4Reply where
  req : Dhcp4Message
  scope : DhcpScope
  mergedOpts : List DhcpOption
  yiaddr : Ipv4Addr
  msgType : Dhcp4MessageType
deriving DecidableEq

/-- The arguments of `build_v6_reply`. -/
structure V6Reply where
  req : Dhcp6Message
  scope : DhcpScope
  assigned : Ipv6Addr
  msgType : Dhcp6MessageType
  serverDuid : Bytes
deriving DecidableEq

/-- A datagram sent: a reply and the address and port it goes to. -/
inductive Packet
  | v4 (reply : V4Reply) (dest : IpAddr × ℕ)
  | v6 (reply : V6Reply) (dest : IpAddr × ℕ)
deriving DecidableEq

end Nomina
