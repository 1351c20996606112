import SigningProxy.Forward.Carrier

/-!
# Signing on the way

A carrier that signs asks its store for the key, puts the signature into the signer's field in place
of whatever the caller sent there, and hands the request on. Without a key or a signature nothing is
handed on.
-/

namespace SigningProxy

variable {σ : Type}

/-- The request with its signature. -/
def Signer.signed (signer : Signer) (now : Int64) (key : Key) (request : Request) :
    Except SignError Request := do
  let signature ← signer.sign request.toRequestHead now key
  return { request with headers := request.headers.insert signer.header signature }

def keyUnavailable (cause : KeyError) : Record :=
  ⟨.warn, .signing, s!"Cannot sign request, secret unavailable: {cause.message}"⟩

/-- Sign with the key in a store, as the files and the clock stand, and hand on to `inner`. -/
def signing (signer : Signer) (files : FileTree) (now : Int64) (inner : Carrier σ) :
    Carrier (KeyStore × σ) :=
  fun request (store, memory) =>
    let asked := store.value files
    match asked.result with
    | .error cause =>
      let told := asked.log ++ [keyUnavailable cause]
      (do Exchange.tell told; return .error (.key cause), asked.store, memory)
    | .ok key =>
      match signer.signed now key request with
      | .error cause =>
        (do Exchange.tell asked.log; return .error (.sign cause), asked.store, memory)
      | .ok request =>
        let (exchange, memory) := inner request memory
        (do Exchange.tell asked.log; exchange, asked.store, memory)

end SigningProxy
