import EdhocAuth.Lib.Proc
import EdhocAuth.Lib.Runs
import EdhocAuth.Lib.Block
import EdhocAuth.Lib.Pool
import EdhocAuth.Lib.Correspondence
import EdhocAuth.Crypto.Primitives
import EdhocAuth.Crypto.Symbolic
import EdhocAuth.Crypto.Knowledge
import EdhocAuth.Edhoc03.Core
import EdhocAuth.Edhoc03.Spec
import EdhocAuth.Edhoc03.Honest
import EdhocAuth.Edhoc03.Sessions
import EdhocAuth.Crypto.Parties
import EdhocAuth.Edhoc4.Core
import EdhocAuth.Edhoc4.Spec
import EdhocAuth.Edhoc4.Honest
import EdhocAuth.Edhoc4.Sessions
import EdhocAuth.Crypto.Transparent
import EdhocAuth.PlaintextBuffers
import EdhocAuth.Api
import EdhocAuth.Typestate
import EdhocAuth.Transparency
import EdhocAuth.KeyReuse
import EdhocAuth.Eap.AttributeWalk
import EdhocAuth.Eap.Fragment
import EdhocAuth.Eap.Server
import EdhocAuth.Eap.Ue
import EdhocAuth.Eap.Reassembly
import EdhocAuth.Eap.Gate
import EdhocAuth.Eap.Lockstep
import EdhocAuth.Eap.Rotation
import EdhocAuth.Attacker.World
import EdhocAuth.Attacker.Schedule
import EdhocAuth.Attacker.Views
import EdhocAuth.Attacker.Ledger
import EdhocAuth.Attacker.Authentication
import EdhocAuth.Attacker.Secrecy
import EdhocAuth.Eap.RoundTrip
import EdhocAuth.Eap.Requests
import EdhocAuth.Eap.Conversations
import EdhocAuth.Eap.Rejection
import EdhocAuth.Eap.Progress
import EdhocAuth.Eap.Duplicates
import EdhocAuth.Eap.Interference
import EdhocAuth.Lib.Octets
import EdhocAuth.Lib.PrefixCode
import EdhocAuth.Lib.Machine
import EdhocAuth.Smf.RadiusClient
import EdhocAuth.Smf.SecAuth
import EdhocAuth.Smf.Verdicts
import EdhocAuth.Lib.Hash
import EdhocAuth.Upf.Md5
import EdhocAuth.Lib.Tlv
import EdhocAuth.Upf.Radius
import EdhocAuth.Upf.EapRelay
import EdhocAuth.Eap.Pdu
import EdhocAuth.Upf.EndToEnd
import EdhocAuth.Lib.Prf
import EdhocAuth.Lib.Sha256
import EdhocAuth.Lib.Ccm
import EdhocAuth.Aka.Kdf
import EdhocAuth.Aka.Keys
import EdhocAuth.Aka.Response
import EdhocAuth.Aka.Mac
import EdhocAuth.Aka.Confirmation
import EdhocAuth.Aka.Decode
import EdhocAuth.Aka.ViewBounds
import EdhocAuth.Aka.RoundTrip
import EdhocAuth.Aka.ReceivedMac
import EdhocAuth.Eap.Codecs
import EdhocAuth.Eap.Assembly
import EdhocAuth.Upf.Verify
import EdhocAuth.Upf.RequestBuffer
import EdhocAuth.Bootstrap.KeySchedule
import EdhocAuth.Crypto.HkdfExpand
import EdhocAuth.Bootstrap.PrfLimit
import EdhocAuth.Bootstrap.OscoreLite
import EdhocAuth.Bootstrap.Separation
import EdhocAuth.Bootstrap.Channel
import EdhocAuth.Bootstrap.AppServer
import EdhocAuth.Bootstrap.Datagram
import EdhocAuth.Lib.Sine
import EdhocAuth.Lib.Rfc1321
import EdhocAuth.Upf.Digest
import EdhocAuth.Crypto.HmacCalls
import EdhocAuth.Edhoc03.HmacCalls
import EdhocAuth.Edhoc4.HmacCalls
import EdhocAuth.KeySeparation
import EdhocAuth.Lib.Linked
import EdhocAuth.Radiusd.Sessions
import EdhocAuth.Radiusd.Server
import EdhocAuth.Radiusd.Admission
import EdhocAuth.Radiusd.Conversations
import EdhocAuth.Radiusd.Edhoc
import EdhocAuth.Radiusd.Availability
import EdhocAuth.Radiusd.Peer
import EdhocAuth.Lib.Bits
import EdhocAuth.Lib.Freshness
import EdhocAuth.Primary.Milenage
import EdhocAuth.Primary.Sqn
import EdhocAuth.Primary.Keys
import EdhocAuth.Primary.Mm
import EdhocAuth.Primary.Challenges
import EdhocAuth.Primary.Freshness
import EdhocAuth.Primary.Core
import EdhocAuth.Primary.Tokens
import EdhocAuth.Primary.Vectors
import EdhocAuth.Primary.Agreement
import EdhocAuth.Primary.Vouching
import EdhocAuth.Primary.Confirmation
import EdhocAuth.Primary.Link
import EdhocAuth.Primary.Tampering
