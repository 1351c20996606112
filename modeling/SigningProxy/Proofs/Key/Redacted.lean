import SigningProxy.Proofs.Files.Recode
import SigningProxy.Proofs.Key.Store

/-!
# Files without their keys

Two files that spell keys differ in nothing but the keys, as far as a store is concerned. Redacting a file
puts one and the same key in the place of the one that it spells, and leaves a file that spells none as it is.
A store asked for the key in redacted files answers as it does in the files themselves, with the same failure
and the same records, except for the key itself.
-/

namespace SigningProxy

namespace Key

/-- The key that stands for every key. -/
def zero : Key := ⟨List.replicate keyLength 0, rfl⟩

/-- The content of a file, with the key of zeros for the key that it spells, if any. -/
def redact (content : List UInt8) : List UInt8 :=
  match Base64.decode Base64.standard (Text.strip isKeyBlank content) with
  | .ok bytes => if bytes.length = keyLength then Base64.encode Base64.standard zero.bytes else content
  | .error _ => content

/-- Redacting changes the key, and never whether there is one. -/
theorem decode_redact (path : String) (content : List UInt8) :
    decode path (redact content) = (decode path content).map fun _ => zero := by
  rw [redact]
  rcases hread : Base64.decode Base64.standard (Text.strip isKeyBlank content) with cause | bytes
  · simp only [decode, hread]
    rfl
  · by_cases hlength : bytes.length = keyLength
    · simp only [hlength, if_true, decode_encode]
      simp only [decode, hread, hlength, dif_pos]
      rfl
    · simp only [hlength, if_false]
      simp only [decode, hread, hlength, dif_neg, not_false_eq_true]
      rfl

/-- Whatever spells a key is redacted to the text of one and the same. -/
theorem redact_of_decode {path : String} {content : List UInt8} {key : Key}
    (hdecode : decode path content = .ok key) :
    redact content = Base64.encode Base64.standard zero.bytes := by
  rw [redact, decode_eq_ok hdecode, Base64.decode_encode Base64.standard_lawful]
  exact if_pos key.length_eq

end Key

namespace KeyStore

theorem fetch_redacted (path : String) (files : FileTree) :
    fetch path (files.recode Key.redact) = (fetch path files).map fun _ => Key.zero := by
  rw [fetch, fetch, FileTree.read_recode]
  rcases files.read path with cause | content
  · rfl
  · exact Key.decode_redact path content

/-- The store with the key of zeros for its key, if it has one. -/
def redacted (s : KeyStore) : KeyStore := { s with key := s.key.map fun _ => Key.zero }

def Answer.redacted (asked : Answer) : Answer :=
  ⟨asked.result.map fun _ => Key.zero, asked.store.redacted, asked.log⟩

/-- **A store with a redacted key, asked in redacted files, gives the redacted answer.** -/
theorem value_redacted (s : KeyStore) (files : FileTree) :
    s.redacted.value (files.recode Key.redact) = (s.value files).redacted := by
  obtain ⟨path, _ | key⟩ := s
  · rw [redacted, value, value]
    dsimp only [Option.map_none]
    rw [fetch_redacted]
    rcases fetch path files with cause | key <;> rfl
  · rfl

end KeyStore

end SigningProxy
