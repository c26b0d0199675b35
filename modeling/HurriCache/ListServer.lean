import HurriCache.BlockInsertion
import HurriCache.CallPipelines
import Mathlib.Data.List.ReduceOption

/-!
# A server for list containers

What the insertion requests do to the list a server keeps, at the level of
elements, and the block length it replies. This is the assumed behaviour of
a node, not code of the client.
-/

set_option autoImplicit false

namespace HurriCache.ListServer
open HurriCache.ClientTypes HurriCache.StandaloneCalls HurriCache.SmartOperations
open HurriCache.CallPipelines HurriCache.BlockInsertion

def block {A : Type} (data : Option (List (Option A))) : List A := (data.getD []).reduceOption

@[simp] theorem block_some {A : Type} (values : List A) :
    block (some (values.map some)) = values := by
  induction values with
  | nil => rfl
  | cons v vs ih => simpa [block, List.reduceOption_cons_of_some] using ih

@[simp] theorem block_firstPtr {A : Type} (values : List A) :
    block (firstPtr (values.map some)) = values := by
  cases values with
  | nil => rfl
  | cons v vs => exact block_some (v::vs)

def listApply : Method → List Value → List Value
  | .addElementToTail data, c => c++block data
  | .addElementToHead data, c => block data++c
  | .addElementToPosition data pos, c => c.take pos.toNat++(block data++c.drop pos.toNat)
  | .addElementToPositionBefore data (some pivot), c => insertBefore pivot (block data) c
  | .addElementToPositionAfter data (some pivot), c => insertAfter pivot (block data) c
  | _, c => c

def listReply : Method → UInt32
  | .addElementToTail data => UInt32.ofNat (block data).length
  | .addElementToHead data => UInt32.ofNat (block data).length
  | .addElementToPosition data _ => UInt32.ofNat (block data).length
  | .addElementToPositionBefore data _ => UInt32.ofNat (block data).length
  | .addElementToPositionAfter data _ => UInt32.ofNat (block data).length
  | _ => 0

def applyMethods (methods : List Method) (c : List Value) : List Value :=
  methods.foldl (fun c m => listApply m c) c

@[simp] theorem applyMethods_nil (c : List Value) : applyMethods [] c = c := rfl

@[simp] theorem applyMethods_cons (m : Method) (ms : List Method) (c : List Value) :
    applyMethods (m::ms) c = applyMethods ms (listApply m c) := rfl

theorem applyMethods_append (ms ns : List Method) (c : List Value) :
    applyMethods (ms++ns) c = applyMethods ns (applyMethods ms c) := by
  simp [applyMethods]

theorem applyAll_dispatch (client : SmartClient) (key : Key) (hint : Option KeyHint)
    (clientId : Int32) (methods : List Method) (c : List Value) :
    applyAll listApply (methods.map (dispatch client key hint clientId)) c =
      applyMethods methods c := by
  simp [applyAll, applyMethods, List.foldl_map, dispatch]

def totalReply (methods : List Method) : UInt32 :=
  (methods.map listReply).foldl (fun total value => total+value) 0

theorem sum_ofNat (ns : List ℕ) (total : UInt32) :
    (ns.map UInt32.ofNat).foldl (fun a b => a+b) total = total+UInt32.ofNat ns.sum := by
  induction ns generalizing total with
  | nil => simp
  | cons n ns ih =>
    rw [List.map_cons, List.foldl_cons, ih, List.sum_cons, UInt32.ofNat_add, UInt32.add_assoc]

theorem totalReply_dispatch (client : SmartClient) (key : Key) (hint : Option KeyHint)
    (clientId : Int32) (methods : List Method) :
    ((methods.map (dispatch client key hint clientId)).map
      (fun r => listReply r.action.method)).foldl (fun total value => total+value) 0 =
        totalReply methods := by
  rw [List.map_map]
  rfl

end HurriCache.ListServer
