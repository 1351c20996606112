import SigningProxy.Http.Authority
import SigningProxy.Proofs.Text.Cut

/-!
# The host of an authority

An authority is a user name up to its last `@`, a host, and a port behind a colon; the user name and the port
may be missing. The host is what is left when these two are taken away, so nothing keeps it from being empty.

The other way round, an authority is spelled from its parts. A colon in the user name or in a literal in brackets
is never taken for the one before the port: the first has an `@` behind it, the second a closing bracket. What
holds no mark can only be the port, so `port?` finds exactly the texts behind a colon that hold none.
-/

namespace SigningProxy.Authority

/-- The port with the colon before it, if there is one. -/
def portText (authority : String) : List Char :=
  match port? authority with
  | some port => ':' :: port.toList
  | none => []

/-- The host: what follows the last `@`, without the port and its colon. -/
def host (authority : String) : List Char :=
  let hostAndPort := hostAndPort authority.toList
  hostAndPort.take (hostAndPort.length - (portText authority).length)

theorem portText_suffix (authority : String) :
    portText authority <:+ hostAndPort authority.toList := by
  rw [portText]
  split
  · next port hport =>
    obtain ⟨⟨before, after⟩, hcut, rfl⟩ := Option.map_eq_some_iff.mp hport
    obtain ⟨hbehind, -⟩ := Text.cutLast?_eq_some_iff.mp hcut
    have hsuffix := Text.afterLast_suffix ']' (hostAndPort authority.toList)
    rw [hbehind] at hsuffix
    rw [String.toList_ofList]
    exact (List.suffix_append before _).trans hsuffix
  · exact List.nil_suffix

/-- Behind the user name there are the host and the port, and nothing else. -/
theorem host_append_portText (authority : String) :
    host authority ++ portText authority = hostAndPort authority.toList := by
  obtain ⟨front, hfront⟩ := portText_suffix authority
  rw [host, ← hfront, List.length_append, Nat.add_sub_cancel, List.take_left]

/-- An authority is empty exactly if there is no host, and no user name and no port either. -/
theorem eq_empty_iff {authority : String} : authority = "" ↔
    host authority = [] ∧ '@' ∉ authority.toList ∧ port? authority = none := by
  constructor
  · rintro rfl
    exact ⟨by decide, by decide, by decide⟩
  · rintro ⟨hhost, huser, hport⟩
    have hparts := host_append_portText authority
    rw [hhost, portText, hport, List.append_nil, hostAndPort, Text.afterLast_of_notMem huser] at hparts
    exact String.toList_eq_nil_iff.mp hparts.symm

/-! ### Spelling an authority -/

/-- A host is a literal in brackets or a text without marks. -/
inductive IsHost : List Char → Prop
  | literal {inside : List Char} (hat : '@' ∉ inside) (hclosing : ']' ∉ inside) :
    IsHost ('[' :: (inside ++ [']']))
  | plain {host : List Char} (hat : '@' ∉ host) (hcolon : ':' ∉ host) (hclosing : ']' ∉ host) :
    IsHost host

/-- A text that can stand behind the colon before a port. -/
structure IsPortText (port : List Char) : Prop where
  at_notMem : '@' ∉ port
  colon_notMem : ':' ∉ port
  closing_notMem : ']' ∉ port

def spell (user : Option String) (host : String) (port : Option String) : String :=
  user.elim "" (· ++ "@") ++ host ++ port.elim "" (":" ++ ·)

variable {authority port : String} {front : List Char}

/-- A colon before a text that holds no mark is behind the user name and behind the brackets. -/
theorem port?_of_split (hsplit : authority.toList = front ++ ':' :: port.toList)
    (hport : IsPortText port.toList) : port? authority = some port := by
  obtain ⟨hat, hcolon, hclosing⟩ := hport
  have hat' : '@' ∉ ':' :: port.toList := by simp [hat]
  have hclosing' : ']' ∉ ':' :: port.toList := by simp [hclosing]
  rw [port?, hsplit, hostAndPort, Text.afterLast_append_of_notMem front hat',
    Text.afterLast_append_of_notMem _ hclosing', Text.cutLast?_append _ hcolon]
  exact congrArg some String.ofList_toList

theorem split_of_port? (hfound : port? authority = some port) :
    (∃ front, authority.toList = front ++ ':' :: port.toList) ∧ IsPortText port.toList := by
  obtain ⟨⟨before, after⟩, hcut, rfl⟩ := Option.map_eq_some_iff.mp hfound
  obtain ⟨hbehind, hcolon⟩ := Text.cutLast?_eq_some_iff.mp hcut
  rw [String.toList_ofList]
  have hplace := Text.afterLast_suffix '@' authority.toList
  have hrest := Text.afterLast_suffix ']' (hostAndPort authority.toList)
  -- Behind the last `@` there is no other, and behind the last bracket no other bracket.
  have hat := Text.notMem_afterLast '@' authority.toList
  have hclosing := Text.notMem_afterLast ']' (hostAndPort authority.toList)
  rw [hbehind] at hrest hclosing
  have hafter : after ⊆ before ++ ':' :: after :=
    fun c hc => List.mem_append_right _ (List.mem_cons_of_mem _ hc)
  obtain ⟨front, hfront⟩ := hrest.trans hplace
  refine ⟨⟨front ++ before, ?_⟩, fun hmem => hat (hrest.subset (hafter hmem)), hcolon,
    fun hmem => hclosing (hafter hmem)⟩
  rw [← hfront, List.append_assoc]

/-- A port is what stands behind a colon and has no mark in it. -/
theorem port?_eq_some_iff : port? authority = some port ↔
    (∃ front, authority.toList = front ++ ':' :: port.toList) ∧ IsPortText port.toList := by
  constructor
  · exact split_of_port?
  · rintro ⟨⟨front, hsplit⟩, hport⟩
    exact port?_of_split hsplit hport

/-! ### Hosts -/

variable {host : List Char}

theorem IsHost.at_notMem (hhost : IsHost host) : '@' ∉ host := by
  cases hhost with
  | literal hat _ => simp [hat]
  | plain hat _ _ => exact hat

/-- A host holds its colons before its closing bracket. -/
theorem IsHost.colon_notMem (hhost : IsHost host) : ':' ∉ Text.afterLast ']' host := by
  cases hhost with
  | @literal inside _ _ =>
      have hbehind : Text.afterLast ']' ('[' :: (inside ++ [']'])) = [] :=
        Text.afterLast_append ('[' :: inside) List.not_mem_nil
      rw [hbehind]
      exact List.not_mem_nil
  | plain _ hcolon hclosing => rwa [Text.afterLast_of_notMem hclosing]

theorem port?_of_host (hhost : IsHost host) (hplace : hostAndPort authority.toList = host) :
    port? authority = none := by
  rw [port?, hplace, Text.cutLast?_eq_none_iff.mpr hhost.colon_notMem]
  rfl

theorem toList_ported (front port : String) :
    (front ++ ":" ++ port).toList = front.toList ++ ':' :: port.toList := by
  simp

theorem port?_bare {host : String} (hhost : IsHost host.toList) : port? host = none :=
  port?_of_host hhost (Text.afterLast_of_notMem hhost.at_notMem)

theorem port?_named (user : String) {host : String} (hhost : IsHost host.toList) :
    port? (user ++ "@" ++ host) = none := by
  have hnamed : (user ++ "@" ++ host).toList = user.toList ++ '@' :: host.toList := by simp
  apply port?_of_host hhost
  rw [hnamed]
  exact Text.afterLast_append _ hhost.at_notMem

theorem port?_ported (front : String) (hport : IsPortText port.toList) :
    port? (front ++ ":" ++ port) = some port :=
  port?_of_split (toList_ported front port) hport

/-- **The port of a spelled authority is the one it was spelled with.** -/
theorem port?_spell (user : Option String) {host : String} {port : Option String}
    (hhost : IsHost host.toList) (hport : ∀ p ∈ port, IsPortText p.toList) :
    port? (spell user host port) = port := by
  cases port with
  | none =>
      cases user with
      | none =>
          have hspell : spell none host none = host := by simp [spell]
          rw [hspell, port?_bare hhost]
      | some user =>
          have hspell : spell (some user) host none = user ++ "@" ++ host := by simp [spell]
          rw [hspell, port?_named user hhost]
  | some port =>
      have hspell : spell user host (some port) = user.elim "" (· ++ "@") ++ host ++ ":" ++ port := by
        simp [spell, String.append_assoc]
      rw [hspell, port?_ported _ (hport port rfl)]

/-- **Where the port of an authority is.** It is found behind a host, with or without a user name before it, and
whatever marks that user name and the brackets hold. In any text at all, the port is what stands behind a colon
and has no mark in it. -/
theorem port_of_parts :
    (∀ user host : String, IsHost host.toList →
      port? host = none ∧ port? (user ++ "@" ++ host) = none ∧
        ∀ port : String, IsPortText port.toList →
          port? (host ++ ":" ++ port) = some port ∧ port? (user ++ "@" ++ host ++ ":" ++ port) = some port) ∧
      ∀ authority port : String, port? authority = some port ↔
        (∃ front, authority = front ++ ":" ++ port) ∧ IsPortText port.toList := by
  constructor
  · intro user host hhost
    exact ⟨port?_bare hhost, port?_named user hhost,
      fun port hport => ⟨port?_ported host hport, port?_ported _ hport⟩⟩
  · intro authority port
    rw [port?_eq_some_iff, and_congr_left_iff]
    intro _
    constructor
    · rintro ⟨front, hsplit⟩
      refine ⟨String.ofList front, String.toList_inj.mp ?_⟩
      rw [hsplit, toList_ported, String.toList_ofList]
    · rintro ⟨front, rfl⟩
      exact ⟨front.toList, toList_ported front port⟩

/-- Colons and brackets in the user name, and a port of no digits. -/
theorem port_of_parts_marks :
    IsHost "[::1]".toList ∧ IsPortText "".toList ∧ port? "a:b@c]:1@[::1]" = none ∧
      port? "a:b@c]:1@[::1]:" = some "" := by
  have hat : '@' ∉ "::1".toList := by decide
  have hhost : IsHost "[::1]".toList := .literal hat (by decide)
  have hport : IsPortText "".toList := ⟨by decide, by decide, by decide⟩
  obtain ⟨-, hbare, hported⟩ := port_of_parts.1 "a:b@c]:1" "[::1]" hhost
  exact ⟨hhost, hport, hbare, (hported "" hport).2⟩

end SigningProxy.Authority
