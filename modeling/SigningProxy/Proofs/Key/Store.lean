import SigningProxy.Key.Store
import SigningProxy.Proofs.Base64.Strict
import SigningProxy.Proofs.Text.Cut

/-!
# What a store gives it keeps

A store that has a key gives it, and one that has none gives what the file spells and keeps it. The
base64 of a key spells the key, with blanks around it or without, and no part of this text spells another
one: it is cut off in its last quad at the latest, so it stands for fewer bytes than a key has.
-/

namespace SigningProxy

theorem isKeyBlank_of_mem_encode {bytes : List UInt8} {b : UInt8}
    (hb : b ∈ Base64.encode Base64.standard bytes) : isKeyBlank b = false := by
  have hsymbol : ∀ n < 64, isKeyBlank (Base64.standard.symbol n) = false := by decide
  rcases Base64.mem_encode hb with ⟨n, hn, rfl⟩ | ⟨-, rfl⟩
  · exact hsymbol n hn
  · decide

/-- The base64 of a key spells the key among blanks too. -/
theorem Key.decode_surrounded (path : String) (key : Key) {front back : List UInt8}
    (hfront : ∀ b ∈ front, isKeyBlank b = true) (hback : ∀ b ∈ back, isKeyBlank b = true) :
    Key.decode path (front ++ Base64.encode Base64.standard key.bytes ++ back) = .ok key := by
  rw [Key.decode, Text.strip_append hfront (fun b hb => isKeyBlank_of_mem_encode hb) hback,
    Base64.decode_encode Base64.standard_lawful]
  exact dif_pos key.length_eq

theorem Key.decode_encode (path : String) (key : Key) :
    Key.decode path (Base64.encode Base64.standard key.bytes) = .ok key := by
  have hnone : ∀ b ∈ ([] : List UInt8), isKeyBlank b = true := fun b hb => absurd hb List.not_mem_nil
  have hdecode := Key.decode_surrounded path key hnone hnone
  rwa [List.nil_append, List.append_nil] at hdecode

theorem Key.decode_eq_ok {path : String} {content : List UInt8} {key : Key}
    (hdecode : Key.decode path content = .ok key) :
    Text.strip isKeyBlank content = Base64.encode Base64.standard key.bytes := by
  rw [Key.decode] at hdecode
  split at hdecode
  · cases hdecode
  · next bytes hbytes =>
    split at hdecode
    · cases hdecode
      exact (Base64.decode_eq_ok_iff Base64.standard_lawful).mp hbytes
    · cases hdecode

/-- **What has been written so far of a key's text spells this key or none.** -/
theorem Key.decode_of_prefix {path : String} {key new : Key} {front back written : List UInt8}
    (hfront : ∀ b ∈ front, isKeyBlank b = true) (hback : ∀ b ∈ back, isKeyBlank b = true)
    (hbegins : written <+: front ++ Base64.encode Base64.standard key.bytes ++ back)
    (hdecode : Key.decode path written = .ok new) : new = key := by
  have htext := Key.decode_eq_ok hdecode
  rw [List.prefix_iff_eq_take, List.append_assoc, List.take_append, List.take_append] at hbegins
  rw [hbegins, ← List.append_assoc, Text.strip_append] at htext
  · have hbytes := Base64.eq_of_encode_prefix Base64.standard_lawful rfl
      (new.length_eq.trans key.length_eq.symm) (htext ▸ List.take_prefix _ _)
    cases new
    cases key
    cases hbytes
    rfl
  · exact fun b hb => hfront b (List.mem_of_mem_take hb)
  · exact fun b hb => isKeyBlank_of_mem_encode (List.mem_of_mem_take hb)
  · exact fun b hb => hback b (List.mem_of_mem_take hb)

namespace KeyStore

variable {s : KeyStore} {files : FileTree} {key : Key} {cause : KeyError}

theorem fetch_eq_ok {path : String} (hfetch : fetch path files = .ok key) :
    ∃ content, files.read path = .ok content ∧ Key.decode path content = .ok key := by
  rw [fetch] at hfetch
  rcases hread : files.read path with cause | content
  · rw [hread] at hfetch
    cases hfetch
  · rw [hread] at hfetch
    exact ⟨content, rfl, hfetch⟩

theorem value_of_fetched (hnone : s.key = none) (hfetch : fetch s.path files = .ok key) :
    s.value files = ⟨.ok key, { s with key := some key }, [loading s.path, loaded s.path]⟩ := by
  rw [value, hnone, hfetch]

theorem value_of_failed (hnone : s.key = none) (hfetch : fetch s.path files = .error cause) :
    s.value files = ⟨.error cause, s, [loading s.path]⟩ := by
  rw [value, hnone, hfetch]

/-- A key that has been given is kept from then on. -/
theorem key_of_value (hkey : (s.value files).result = .ok key) :
    (s.value files).store.key = some key := by
  rcases hstored : s.key with _ | kept
  · rcases hfetch : fetch s.path files with cause | read
    · rw [value_of_failed hstored hfetch] at hkey
      cases hkey
    · rw [value_of_fetched hstored hfetch] at hkey ⊢
      cases hkey
      rfl
  · rw [value_of_some hstored] at hkey ⊢
    cases hkey
    exact hstored

theorem store_value (s : KeyStore) (files : FileTree) :
    (s.value files).store = { s with key := s.key.or (fetch s.path files).toOption } := by
  obtain ⟨path, key⟩ := s
  cases key with
  | some key => rfl
  | none =>
      dsimp only
      rcases hfetch : fetch path files with cause | key
      · rw [value_of_failed (s := ⟨path, none⟩) rfl hfetch]
        rfl
      · rw [value_of_fetched (s := ⟨path, none⟩) rfl hfetch]
        rfl

theorem result_value (s : KeyStore) (files : FileTree) :
    (s.value files).result = s.key.elim (fetch s.path files) .ok := by
  rcases hkept : s.key with _ | kept
  · rcases hfetch : fetch s.path files with cause | key
    · rw [value_of_failed hkept hfetch]
      rfl
    · rw [value_of_fetched hkept hfetch]
      rfl
  · rw [value_of_some hkept]
    rfl

end KeyStore

end SigningProxy
