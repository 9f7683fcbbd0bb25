import KineticAtlas.Library.Texts

/-!
The data of the Atlas daemon (types.rs, error.rs, constants.rs): configurations,
DNS zones, proxied requests and the error taxonomy. A Rust `HashMap` that is only
looked up and updated is a partial function of its keys.
-/
namespace KineticAtlas.Types

open Library.Texts

/-- Global configuration of the daemon (AtlasConfig). -/
structure AtlasConfig where
  version : Str
  whitelist : List Str
  blacklist : List Str
  bindPort : UInt16
  kineticApi : Str
  kineticToken : Str
  networksDir : Str
  registryUrl : Option Str
  overrideIpfsGateway : Option Str
  updaterPublicKey : Option Str
  deriving DecidableEq

/-- Configuration of one foreign network (NetworkConfig). -/
structure NetworkConfig where
  version : Str
  networkId : Str
  tld : Str
  bootstrapNodes : List Str
  localBindIp : Str
  apiPort : Option UInt16
  repo : Option Str
  seedDomain : Option Str
  ipfsGateway : Option Str
  deriving DecidableEq

inductive IpAddr
  | v4 (addr : BitVec 32)
  | v6 (addr : BitVec 128)
  deriving DecidableEq

inductive DnsRecord
  | a (addr : BitVec 32)
  | aaaa (addr : BitVec 128)
  | cname (name : Str)
  | txt (text : Str)
  | peerId (id : Str)
  | kid (id : Str)
  | ipfs (cid : Str)
  | other
  deriving DecidableEq

structure DnsZone where
  records : Str → Option (List DnsRecord)

structure ProxyRequest where
  method : Str
  path : Str
  headers : List (Str × Str)
  body : Bytes
  deriving DecidableEq

structure ProxyResponse where
  status : UInt16
  headers : List (Str × Str)
  body : Bytes
  deriving DecidableEq

/-- A libp2p peer identity, by its multihash. -/
structure PeerId where
  multihash : Bytes
  deriving DecidableEq

inductive AtlasError
  | networkInitFailed (reason : Str)
  | dnsResolutionFailed (reason : Str)
  | configError (reason : Str)
  | invalidProxyRequest (reason : Str)
  | proxyTargetFailed
  | updaterFailed (reason : Str)
  | tldBlacklisted
  deriving DecidableEq

def defaultProxyPort : UInt16 := 17002
def defaultKineticApi : Str := "http://127.0.0.1:16202"
def defaultBindIp : Str := "127.0.0.1"
def globalDirName : Str := "kinetic_global"
def proxiesDirName : Str := "proxies"
def atlasPrefix : Str := "atlas_"
def defaultIpfsGateway : Str := "http://127.0.0.1:8080"

end KineticAtlas.Types
