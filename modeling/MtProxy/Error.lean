import MtProxy.Stream.Poll

/-! The part of `error.rs` that the modelled code returns. -/

namespace MtProxy

inductive ProxyError where
  | crypto (message : String)
  | seqNoMismatch (expected got : Int32)
  | io (error : Stream.IoError)
  | proxy (message : String)
  | invalidHandshake (message : String)
  | tgHandshakeTimeout
  deriving DecidableEq

/-- What a handshake comes to. A client that fails it gets its streams back, for masking. -/
inductive HandshakeResult (T R W : Type) where
  | success (result : T)
  | badClient (reader : R) (writer : W)
  | error (e : ProxyError)

end MtProxy
