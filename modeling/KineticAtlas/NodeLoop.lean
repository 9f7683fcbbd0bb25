import KineticAtlas.Types
import KineticAtlas.Library.Runs
import KineticAtlas.Library.Ledger

/-!
The event loop of a network node (KineticAtlasNode::run in network.rs). Each turn
takes one command from the channel or one event from the libp2p swarm; what libp2p
answers to the calls made in that turn is part of the turn's input and arbitrary.
The three pending maps are three ledgers of responders. A responder is named by
the position of its command in the channel, as every command brings its own.
-/
namespace KineticAtlas.NodeLoop

open Library.Texts Library.Runs Library.Ledgers KineticAtlas.Types

/-- Commands sent to the node; `R` is the type of the oneshot responders. -/
inductive NetworkCommand (R : Type)
  | getRecord (domain : Str) (resp : R)
  | lookupPeer (peerIdStr : Str) (resp : R)
  | sendProxyRequest (peerId : PeerId) (request : ProxyRequest) (resp : R)
  deriving DecidableEq

structure NodeState (R : Type) where
  pendingQueries : ℕ → Option R
  pendingDials : PeerId → Option R
  pendingRequests : ℕ → Option R

/-- What the libp2p calls of one turn return, for whichever of them is made. -/
structure Libp2pAnswers where
  queryId : ℕ
  dialOk : Bool
  requestId : ℕ
  deriving DecidableEq

inductive Libp2pCall
  | getRecord (key : Str)
  | dial (peerId : PeerId)
  | sendRequest (peerId : PeerId) (request : ProxyRequest)

/-- A component of a multiaddr; only the address components matter here. -/
inductive Protocol
  | ip4 (addr : BitVec 32)
  | ip6 (addr : BitVec 128)
  | other
  deriving DecidableEq

/-- `GetRecord(Ok(FoundRecord))` or any other result of any other query. -/
inductive QueryResult
  | foundRecord (value : Bytes)
  | other
  deriving DecidableEq

inductive SwarmEvent
  | outboundQueryProgressed (id : ℕ) (result : QueryResult)
  | response (requestId : ℕ) (response : ProxyResponse)
  | request
  | outboundFailure (requestId : ℕ)
  | connectionEstablished (peerId : PeerId) (remoteAddress : List Protocol)
  | outgoingConnectionError (peerId : Option PeerId)
  | identify
  | other
  deriving DecidableEq

inductive Reply (R : Type)
  | record (resp : R) (value : Option Bytes)
  | peer (resp : R) (ip : Option IpAddr)
  | proxy (resp : R) (response : Option ProxyResponse)
  deriving DecidableEq

/-- What one turn of the loop leaves behind. -/
structure Turn (R : Type) where
  state : NodeState R
  call : Option Libp2pCall
  reply : Option (Reply R)

inductive LoopInput (R : Type)
  | recv (cmd : Option (NetworkCommand R)) (answers : Libp2pAnswers)
  | event (event : SwarmEvent)
  deriving DecidableEq

variable {R : Type}

/-- The last address component of the remote multiaddr decides. -/
def remoteIp (remoteAddress : List Protocol) : Option IpAddr :=
  remoteAddress.foldl (fun ip protocol =>
    match protocol with
    | .ip4 addr => some (.v4 addr)
    | .ip6 addr => some (.v6 addr)
    | .other => ip) none

def QueryResult.value : QueryResult → Option Bytes
  | .foundRecord value => some value
  | .other => none

/-- `parsePeerId` is the libp2p text format of peer identities. -/
def handleCommand (parsePeerId : Str → Option PeerId) (s : NodeState R)
    (answers : Libp2pAnswers) : NetworkCommand R → Turn R
  | .getRecord domain resp =>
    { state := { s with
        pendingQueries := Function.update s.pendingQueries answers.queryId (some resp) }
      call := some (.getRecord domain)
      reply := none }
  | .lookupPeer peerIdStr resp =>
    match parsePeerId peerIdStr with
    | some peerId =>
      if answers.dialOk then
        -- the insert overwrites a responder already waiting for this peer
        { state := { s with pendingDials := Function.update s.pendingDials peerId (some resp) }
          call := some (.dial peerId)
          reply := none }
      else { state := s, call := some (.dial peerId), reply := some (.peer resp none) }
    | none => { state := s, call := none, reply := some (.peer resp none) }
  | .sendProxyRequest peerId request resp =>
    { state := { s with
        pendingRequests := Function.update s.pendingRequests answers.requestId (some resp) }
      call := some (.sendRequest peerId request)
      reply := none }

def handleEvent (s : NodeState R) : SwarmEvent → Turn R
  | .outboundQueryProgressed id result =>
    match s.pendingQueries id with
    | some resp =>
      { state := { s with pendingQueries := Function.update s.pendingQueries id none }
        call := none
        reply := some (.record resp result.value) }
    | none => { state := s, call := none, reply := none }
  | .response requestId response =>
    match s.pendingRequests requestId with
    | some resp =>
      { state := { s with pendingRequests := Function.update s.pendingRequests requestId none }
        call := none
        reply := some (.proxy resp (some response)) }
    | none => { state := s, call := none, reply := none }
  | .request => { state := s, call := none, reply := none }
  | .outboundFailure requestId =>
    match s.pendingRequests requestId with
    | some resp =>
      { state := { s with pendingRequests := Function.update s.pendingRequests requestId none }
        call := none
        reply := some (.proxy resp none) }
    | none => { state := s, call := none, reply := none }
  | .connectionEstablished peerId remoteAddress =>
    match s.pendingDials peerId with
    | some resp =>
      { state := { s with pendingDials := Function.update s.pendingDials peerId none }
        call := none
        reply := some (.peer resp (remoteIp remoteAddress)) }
    | none => { state := s, call := none, reply := none }
  | .outgoingConnectionError (some peerId) =>
    match s.pendingDials peerId with
    | some resp =>
      { state := { s with pendingDials := Function.update s.pendingDials peerId none }
        call := none
        reply := some (.peer resp none) }
    | none => { state := s, call := none, reply := none }
  | .outgoingConnectionError none => { state := s, call := none, reply := none }
  | .identify => { state := s, call := none, reply := none }
  | .other => { state := s, call := none, reply := none }

/-- One turn of the select loop; a closed channel ends the loop. -/
def loopTurn (parsePeerId : Str → Option PeerId) (s : NodeState R) :
    LoopInput R → Option (Turn R)
  | .recv none _ => none
  | .recv (some cmd) answers => some (handleCommand parsePeerId s answers cmd)
  | .event event => some (handleEvent s event)

end KineticAtlas.NodeLoop
