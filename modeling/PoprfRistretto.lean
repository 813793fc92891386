import PoprfRistretto.Library.PrattCertificate
import PoprfRistretto.Library.LittleEndian
import PoprfRistretto.Library.DiscreteLogEquality
import PoprfRistretto.Library.Blinding
import PoprfRistretto.Library.PrefixCode
import PoprfRistretto.Library.ExceptLoop
import PoprfRistretto.GroupOrder
import PoprfRistretto.Suite
import PoprfRistretto.Util
import PoprfRistretto.Group
import PoprfRistretto.Key
import PoprfRistretto.Dleq
import PoprfRistretto.Poprf.Types
import PoprfRistretto.Poprf.Client
import PoprfRistretto.Poprf.Server
import PoprfRistretto.Transcripts
import PoprfRistretto.DleqTheorems
import PoprfRistretto.Poprf.Functionality
import PoprfRistretto.Poprf.ServerTheorems
import PoprfRistretto.Poprf.ClientTheorems
import PoprfRistretto.Poprf.Codecs
import PoprfRistretto.ReferenceSuite
import PoprfRistretto.Poprf.Exchange
import PoprfRistretto.DleqSoundness
import PoprfRistretto.Poprf.Evaluation
import PoprfRistretto.Poprf.Obliviousness
import PoprfRistretto.Instrumented.Dleq
import PoprfRistretto.Poprf.KeyBinding
import PoprfRistretto.Instrumented.Poprf
import PoprfRistretto.Instrumented.Events
import PoprfRistretto.Library.Run
import PoprfRistretto.Library.Logged
import PoprfRistretto.Api.Calls
import PoprfRistretto.Api.Sessions
import PoprfRistretto.Api.LengthPrefixes
import PoprfRistretto.Poprf.Completeness
import PoprfRistretto.DleqZeroKnowledge
import PoprfRistretto.Poprf.Batching
import PoprfRistretto.Api.Composites
import PoprfRistretto.DomainSeparation
import PoprfRistretto.Library.Utf8
import PoprfRistretto.Serde
import PoprfRistretto.Library.FillLoop
import PoprfRistretto.SerdeTheorems
import PoprfRistretto.Ffi.State
import PoprfRistretto.Library.PartialState
import PoprfRistretto.Ffi.Functions
import PoprfRistretto.Ffi.LastError
import PoprfRistretto.Ffi.Batches
import PoprfRistretto.Ffi.Contracts
import PoprfRistretto.Protocol.Parties
import PoprfRistretto.Protocol.World
import PoprfRistretto.Protocol.Views
import PoprfRistretto.Wasm.Functions
import PoprfRistretto.Ffi.Base64Engine
import PoprfRistretto.Wasm.Finalize
import PoprfRistretto.Wasm.Blind
import PoprfRistretto.Wasm.Sessions
import PoprfRistretto.Ffi.Ownership
import PoprfRistretto.Ffi.Process
import PoprfRistretto.Ffi.Results
import PoprfRistretto.Ffi.Values
import PoprfRistretto.Ffi.Answers
import PoprfRistretto.Deployment
import PoprfRistretto.SerdeImpls
import PoprfRistretto.Poprf.NonceReuse
import PoprfRistretto.Ffi.Messages
import PoprfRistretto.Library.RejectionSampling
import PoprfRistretto.Wasm.Hiding
import PoprfRistretto.Protocol.Mismatch
