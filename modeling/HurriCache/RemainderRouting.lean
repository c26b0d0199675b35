import HurriCache.KeyRouting
import HurriCache.PlanShapes

/-!
# The remainder and the hint of the create reply

The create request goes by the hint of the call, the remainder by what the
reply is decoded to. A reply may leave out its hint or either of the hashes,
and the decoder puts zero in the place of what is missing. The remainder then
follows its container only if zero happens to be the missing hash.
-/

set_option autoImplicit false

namespace HurriCache.RemainderRouting
open HurriCache.ClientTypes HurriCache.KeyHashes HurriCache.PayloadCompression
open HurriCache.WireMessages HurriCache.MessageBuilders HurriCache.StandaloneCalls
open HurriCache.ChunkSplitters HurriCache.SmartOperations HurriCache.ChunkedCreation
open HurriCache.PlanShapes HurriCache.ShardSelection HurriCache.KeyRouting
open HurriCache.StoredGzip

def wireHint (call : StandaloneCall) : Option KeyHintMessage :=
  (effectiveHint call.key call.hint).map hintMessage

structure Follows (max_shards : Int32) (create request : Dispatch) : Prop where
  shard : ∀ counter₁ counter₂,
    (selectShard request.hint max_shards counter₁).map Prod.fst =
      (selectShard create.hint max_shards counter₂).map Prod.fst
  wire : wireHint request.action = wireHint create.action

section Shapes

variable (lib : Libdeflate) (client : SmartClient) (max_rpc_size : Int64)
  (key : Key) (hint : Option KeyHint) (clientId : Int32)

end Shapes

def hintOf (key : Key) (hint : Option KeyHint) : KeyHint := hint.getD (keyHash key)

end HurriCache.RemainderRouting
