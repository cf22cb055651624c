import DuplexRpc.Proofs.Address.Rewriting

/-!
Written forms tell addresses apart, also those whose written form is not read again. The first mark
ends the scheme, the first slash the authority of a web address, and the last colon its host; a host
without a colon is never written like one that the brackets are put around.
-/
namespace DuplexRpc

theorem Scheme.text_injective : Function.Injective Scheme.text := by
  intro scheme scheme' h
  exact Option.some.inj ((ofText?_eq_some_iff.2 rfl).symm.trans (ofText?_eq_some_iff.2 h))

namespace Address

open Text

variable {host host' : String} {port port' : UInt16} {a b : Address}

theorem toList_bracketed (host : String) : (bracketed host).toList =
    if ':' ∈ host.toList then '[' :: (host.toList ++ [']']) else host.toList := by
  by_cases h : ':' ∈ host.toList <;> simp [bracketed, h]

/-- The colon that asks for the brackets stays inside of them. -/
theorem colon_mem_bracketed_iff : ':' ∈ (bracketed host).toList ↔ ':' ∈ host.toList := by
  rw [toList_bracketed]
  split
  next h => simp [h]
  next => rfl

theorem bracketed_injective : Function.Injective bracketed := by
  intro host host' h
  have hlist := congrArg String.toList h
  have hcolon : ':' ∈ host.toList ↔ ':' ∈ host'.toList := by
    rw [← colon_mem_bracketed_iff, h, colon_mem_bracketed_iff]
  rw [toList_bracketed, toList_bracketed] at hlist
  refine String.toList_inj.1 ?_
  by_cases hhost : ':' ∈ host.toList
  · rw [if_pos hhost, if_pos (hcolon.1 hhost)] at hlist
    exact List.append_cancel_right (List.cons.inj hlist).2
  · rwa [if_neg hhost, if_neg (mt hcolon.2 hhost)] at hlist

theorem portText_injective : Function.Injective portText := by
  intro port port' h
  have hvalue := portValue_portText 0 port
  rw [h, portValue_portText] at hvalue
  exact (Option.some.inj hvalue).symm

/-- The port has no colon, so the last one stands before it. -/
theorem cutLast?_uriAuthority (host : String) (port : UInt16) :
    cutLast? ':' (uriAuthority host port) =
      some ((bracketed host).toList, (portText port).toList) :=
  cutLast?_eq_some_iff.2 ⟨rfl, not_mem_portText rfl port⟩

theorem uriAuthority_inj (h : uriAuthority host port = uriAuthority host' port') :
    host = host' ∧ port = port' := by
  have hcut := cutLast?_uriAuthority host port
  rw [h, cutLast?_uriAuthority] at hcut
  obtain ⟨hhost, hport⟩ := Prod.mk.inj (Option.some.inj hcut)
  exact ⟨(bracketed_injective (String.toList_inj.1 hhost)).symm,
    (portText_injective (String.toList_inj.1 hport)).symm⟩

theorem withScheme_inj {scheme scheme' : Scheme} {rest rest' : List Char}
    (h : withScheme scheme rest = withScheme scheme' rest') : scheme = scheme' ∧ rest = rest' := by
  have hcut := firstCut_withScheme scheme rest
  rw [h] at hcut
  obtain ⟨htext, hrest⟩ := hcut.unique (firstCut_withScheme scheme' rest')
  exact ⟨Scheme.text_injective (String.toList_inj.1 htext), hrest⟩

/-- What is not written of a normal address follows from its scheme. -/
theorem IsNormal.eq_of_uriRest_eq (ha : a.IsNormal) (hb : b.IsNormal)
    (hscheme : a.scheme = b.scheme) (h : a.uriRest = b.uriRest) : a = b := by
  obtain ⟨scheme, host, port, path, secure⟩ := a
  obtain ⟨scheme', host', port', path', secure'⟩ := b
  obtain rfl : scheme = scheme' := hscheme
  cases scheme with
  | tcp =>
    obtain ⟨-, rfl, rfl⟩ := ha
    obtain ⟨-, rfl, rfl⟩ := hb
    obtain ⟨rfl, rfl⟩ := uriAuthority_inj h
    rfl
  | unix =>
    obtain ⟨rfl, rfl, rfl, -⟩ := ha
    obtain ⟨rfl, rfl, rfl, -⟩ := hb
    obtain rfl := String.toList_inj.1 h
    rfl
  | stdio | mem =>
    obtain ⟨rfl, rfl, rfl⟩ := ha
    obtain ⟨rfl, rfl, rfl⟩ := hb
    obtain rfl := String.toList_inj.1 h
    rfl
  | ws | wss =>
    obtain ⟨-, hslash, hpath, hsecure⟩ := ha
    obtain ⟨-, hslash', hpath', hsecure'⟩ := hb
    have hparts : WebParts (uriAuthority host port ++ path.toList) (uriAuthority host port)
        path.toList := ⟨rfl, slash_not_mem_uriAuthority hslash port, .inr hpath.1⟩
    have hparts' : WebParts (uriAuthority host port ++ path.toList) (uriAuthority host' port')
        path'.toList := ⟨h, slash_not_mem_uriAuthority hslash' port', .inr hpath'.1⟩
    obtain ⟨hauthority, hpaths⟩ := hparts.unique hparts'
    obtain ⟨rfl, rfl⟩ := uriAuthority_inj hauthority
    obtain rfl := String.toList_inj.1 hpaths
    obtain rfl : secure = secure' := Bool.eq_iff_iff.2 (hsecure.trans hsecure'.symm)
    rfl

/-- Two addresses that have been read are written alike only if they are equal. -/
theorem eq_of_toUri_eq_of_parse {u v : String} (ha : parse u = .ok a) (hb : parse v = .ok b)
    (h : a.toUri = b.toUri) : a = b := by
  rw [toUri_eq, toUri_eq] at h
  obtain ⟨hscheme, hrest⟩ := withScheme_inj h
  exact (isNormal_of_parse ha).eq_of_uriRest_eq (isNormal_of_parse hb) hscheme hrest

/-- Two texts that are written back alike, as one that is refused, and another text that is not. -/
theorem eq_of_toUri_eq_of_parse_refused :
    (∃ a b, parse "ws://:]:/a" = .ok a ∧ parse "ws://:]:+080/a" = .ok b ∧
      a.toUri = b.toUri ∧ a = b) ∧
    toUri ⟨.ws, ":]", 80, "/a", false⟩ = "ws://[:]]:80/a" ∧
    parse "ws://]:80/a" = .ok ⟨.ws, "]", 80, "/a", false⟩ ∧
    toUri ⟨.ws, ":]", 80, "/a", false⟩ ≠ toUri ⟨.ws, "]", 80, "/a", false⟩ := by
  have hfirst : parse "ws://:]:/a" = .ok ⟨.ws, ":]", 80, "/a", false⟩ := rfl
  have hsecond : parse "ws://:]:+080/a" = .ok ⟨.ws, ":]", 80, "/a", false⟩ := rfl
  have hother : parse "ws://]:80/a" = .ok ⟨.ws, "]", 80, "/a", false⟩ := rfl
  refine ⟨⟨_, _, hfirst, hsecond, rfl, eq_of_toUri_eq_of_parse hfirst hsecond rfl⟩, rfl, hother,
    fun h => ?_⟩
  exact absurd (eq_of_toUri_eq_of_parse hfirst hother h) (by decide)

end Address
end DuplexRpc
