import AsioUtils.Lib.OrderedMap
import AsioUtils.Net.TCPSessionManager
import Mathlib.Data.Int.Order.Basic

/-!
# Relaying between clients and servers

The gateway and the balance server pass a client's packet on to another server, with the client session's uuid for
`extraID`, and send what comes back to the session of that uuid. Which packets are passed on, and where, depends on the
range their type is in.

* `CGSession.handlerMsg`, `CBSession.handlerMsg` : a packet from a client;
* `G2CSession.handlerMsg` and its like : a packet from a server;
* `Relay` : one of the two servers, with the functions above as its parts.
-/

namespace AsioUtils.GateWay

open Net CPG

/-! ## Message types -/

/-- The types from `first` to `last`. -/
structure TypeRange where
  first : Int32
  last : Int32

instance : Membership Int32 TypeRange := ⟨fun r type => r.first ≤ type ∧ type ≤ r.last⟩

instance (type : Int32) (r : TypeRange) : Decidable (type ∈ r) :=
  inferInstanceAs (Decidable (r.first ≤ type ∧ type ≤ r.last))

def GSTransFromCP : TypeRange := ⟨10000, 16000⟩
def GSTransToLSFromCP : TypeRange := ⟨10000, 10500⟩
def GSTransToCSFromCP : TypeRange := ⟨11000, 12000⟩
def GSTransToMSFromCP : TypeRange := ⟨15000, 16000⟩
def BSTransToCSFromCP : TypeRange := ⟨17000, 17500⟩

def kServerAllMatchDistributeNotify : Int32 := 5006

/-! ## From a client -/

/-- The members of the kernel that say where a packet goes; the balance server has `centralSession_` only. -/
structure Routes where
  matchesServices_ : OrderedMap Int TCPSessionPtr id := .empty
  loginSession_ : Option TCPSessionPtr := none
  centralSession_ : Option TCPSessionPtr := none

section Trans

variable (m : TCPSessionManager) (r : Routes) (data : List UInt8) (header : PacketHeader)

/-- The common body of the functions below: without a session the packet is dropped. -/
def transTo (session : Option TCPSessionPtr) : List Sent :=
  match session with
  | some session => m.sendMsg (some session) data header kDefaultStype
  | none => []

def GSKernel.transToLS : List Sent := transTo m data header r.loginSession_

def GSKernel.transToCS : List Sent := transTo m data header r.centralSession_

/-- In an empty `matchesServices_` nothing is found either. -/
def GSKernel.transToMS (mid : Int) : List Sent := transTo m data header ((r.matchesServices_.find? mid).map Prod.snd)

def BSKernel.transToCS : List Sent := transTo m data header r.centralSession_

end Trans

/-- `uuid` is that of the session itself. -/
def CGSession.handlerMsg (m : TCPSessionManager) (r : Routes) (uuid : Int32) (buffer : List UInt8)
    (header : PacketHeader) : List Sent :=
  if header.type ∈ GSTransFromCP then
    if header.type ∈ GSTransToCSFromCP then GSKernel.transToCS m r buffer { header with extraID := uuid }
    else if header.type ∈ GSTransToMSFromCP then
      GSKernel.transToMS m r buffer { header with extraID := uuid } header.extraID.toInt
    else if header.type ∈ GSTransToLSFromCP then GSKernel.transToLS m r buffer { header with extraID := uuid }
    else []
  else []

def CBSession.handlerMsg (m : TCPSessionManager) (r : Routes) (uuid : Int32) (buffer : List UInt8)
    (header : PacketHeader) : List Sent :=
  if header.type ∈ BSTransToCSFromCP then BSKernel.transToCS m r buffer { header with extraID := uuid } else []

/-! ## From a server -/

/-- What a packet from a server is taken for. -/
inductive ServerMsg
  | transToClient | distibuteMatchesNotify | unhandled
  deriving DecidableEq, Repr

def G2CSession.handlerMsg (type : Int32) : ServerMsg :=
  if type ∈ GSTransToCSFromCP then .transToClient
  else if type = kServerAllMatchDistributeNotify then .distibuteMatchesNotify
  else .unhandled

def G2LSession.handlerMsg (type : Int32) : ServerMsg :=
  if type ∈ GSTransToLSFromCP then .transToClient else .unhandled

def G2MSession.handlerMsg (type : Int32) : ServerMsg :=
  if type ∈ GSTransToMSFromCP then .transToClient else .unhandled

def B2CSession.handlerMsg (type : Int32) : ServerMsg :=
  if type ∈ BSTransToCSFromCP then .transToClient else .unhandled

/-- `onClose` in the gateway: a `G2LSession` and a `G2MSession` call `unenableRetry`. -/
def onClose (s : Session) : Session :=
  if s.client_ = true ∧ (s.type.toNat = ServerType.LoginServer.toInt ∨ s.type.toNat = ServerType.MatchServer.toInt) then
    { s with retry_ := false }
  else s

def GSKernel.transToClient (m : TCPSessionManager) (data : List UInt8) (header : PacketHeader) : Option (List Sent) :=
  m.sendMsgTo header.extraID data header kDefaultStype

def BSKernel.transToClient (m : TCPSessionManager) (data : List UInt8) (header : PacketHeader) : Option (List Sent) :=
  m.sendMsgTo header.extraID data header kDefaultStype

/-! ## The two servers -/

inductive Relay
  | gateWay | balanceServer
  deriving DecidableEq, Repr

namespace Relay

/-- `handlerMsg` of an accepted client session. -/
def clientMsg : Relay → TCPSessionManager → Routes → Int32 → List UInt8 → PacketHeader → List Sent
  | gateWay => CGSession.handlerMsg
  | balanceServer => CBSession.handlerMsg

/-- `handlerMsg` of a session that connects to a server of type `server`. -/
def serverMsg : Relay → (server : ServerType) → (type : Int32) → ServerMsg
  | gateWay, .CentralServer => G2CSession.handlerMsg
  | gateWay, .LoginServer => G2LSession.handlerMsg
  | gateWay, .MatchServer => G2MSession.handlerMsg
  | balanceServer, .CentralServer => B2CSession.handlerMsg
  | _, _ => fun _ => .unhandled

def transToClient : Relay → TCPSessionManager → List UInt8 → PacketHeader → Option (List Sent)
  | gateWay => GSKernel.transToClient
  | balanceServer => BSKernel.transToClient

theorem transToClient_eq (k : Relay) (m : TCPSessionManager) (data : List UInt8) (header : PacketHeader) :
    k.transToClient m data header = m.sendMsgTo header.extraID data header kDefaultStype := by
  cases k
  · exact Eq.refl (GSKernel.transToClient m data header)
  · exact Eq.refl (BSKernel.transToClient m data header)

/-- `onClose` of the class that the listener or `createConnectorSession` has made. -/
def onClose : Relay → Session → Session
  | gateWay => GateWay.onClose
  | balanceServer => fun s => s

theorem onClose_frame (k : Relay) (s : Session) : (k.onClose s).uuid_ = s.uuid_ ∧ (k.onClose s).state_ = s.state_ := by
  cases k
  · show (GateWay.onClose s).uuid_ = _ ∧ (GateWay.onClose s).state_ = _
    unfold GateWay.onClose
    split_ifs
    · exact ⟨rfl, rfl⟩
    · exact ⟨rfl, rfl⟩
  · exact ⟨rfl, rfl⟩

end Relay

end AsioUtils.GateWay
