import Mathlib.Data.Bool.AllAny
import WslVault.IdentityService.AwsIam

/-!
# Where a replayed STS request goes

`validate` looks at the first characters of the URL only. They start the host name when the
URL has no user information, and are no part of it otherwise.
-/

namespace WslVault.IdentityService.AwsIam

open Base

variable {decode : String → Except String (List UInt8)}
  {fromStr : String → Except String (List (String × String))} {url body headersJson : String}
  {request : StsRequest} {other : String → Option (List Char)}
  {name info text port tail : List Char}

theorem validate_ok (h : validate decode fromStr url body headersJson = .ok request) :
    request.url = url ∧ ∃ rest, url.toList = "https://".toList ++ rest := by
  have hstarts : ∀ start rest, startsWith url start = true →
      start.toList = "https://".toList ++ rest →
      ∃ rest, url.toList = "https://".toList ++ rest := by
    intro start rest h hstart
    obtain ⟨more, hmore⟩ := List.isPrefixOf_iff_prefix.mp h
    exact ⟨rest ++ more, by rw [← hmore, hstart, List.append_assoc]⟩
  simp only [validate, bind_eq_ok, refuseIf_eq_ok, pure_eq_ok] at h
  obtain ⟨-, hstart, bodyBytes, -, headers, -, rfl⟩ := h
  refine ⟨rfl, ?_⟩
  rw [Bool.and_eq_true, Bool.not_eq_true', Bool.not_eq_true', not_and_or, Bool.not_eq_false,
    Bool.not_eq_false] at hstart
  rcases hstart with hstart | hstart
  · exact hstarts _ "sts.amazonaws.com".toList hstart rfl
  · exact hstarts _ "sts.".toList hstart rfl

/-- The text of a URL with the host text: user information ends at the last `@`, and the port
starts at the first `:` after it. -/
structure Parts (url : String) (info text port tail : List Char) : Prop where
  spells : url.toList = "https://".toList ++ (info ++ (text ++ port) ++ tail)
  inside : ∀ c ∈ info ++ (text ++ port), c ∉ authorityEnds
  info_at : info = [] ∨ ∃ user, info = user ++ ['@']
  text_at : '@' ∉ text ++ port
  text_colon : ':' ∉ text
  port_colon : port = [] ∨ ∃ digits, port = ':' :: digits
  tail_end : tail = [] ∨ ∃ c rest, tail = c :: rest ∧ c ∈ authorityEnds

theorem takeWhile_append_stop {p : Char → Bool} {l rest : List Char} (hl : ∀ c ∈ l, p c = true)
    (hrest : rest = [] ∨ ∃ c rest', rest = c :: rest' ∧ p c = false) :
    (l ++ rest).takeWhile p = l := by
  rw [List.takeWhile_append_of_pos hl]
  rcases hrest with rfl | ⟨c, rest', rfl, hc⟩
  · exact List.append_nil l
  · rw [List.takeWhile_cons_of_neg (by simp [hc]), List.append_nil]

theorem dropWhile_stop (p : Char → Bool) (l : List Char) :
    l.dropWhile p = [] ∨ ∃ c rest, l.dropWhile p = c :: rest ∧ p c = false := by
  cases h : l.dropWhile p with
  | nil => exact .inl rfl
  | cons c rest =>
    have hhead := List.head?_dropWhile_not p l
    rw [h] at hhead
    exact .inr ⟨c, rest, rfl, hhead⟩

theorem authority_eq {rest : List Char} (hrest : url.toList = "https://".toList ++ rest) :
    authority url = rest.takeWhile (· ∉ authorityEnds) := by
  have hlength : "https://".toList.length = 8 := by decide
  rw [authority, hrest, ← hlength, List.drop_left]

theorem Parts.hostText_eq (h : Parts url info text port tail) : hostText url = text := by
  have hauthority : authority url = info ++ (text ++ port) := by
    rw [authority_eq h.spells]
    refine takeWhile_append_stop (fun c hc => decide_eq_true (h.inside c hc)) ?_
    simpa using h.tail_end
  have hat : (info ++ (text ++ port)).reverse.takeWhile (· ≠ '@') = (text ++ port).reverse := by
    rw [List.reverse_append]
    refine takeWhile_append_stop (fun c hc => decide_eq_true ?_) ?_
    · rintro rfl
      exact h.text_at (List.mem_reverse.mp hc)
    · rcases h.info_at with rfl | ⟨user, rfl⟩
      · exact .inl rfl
      · exact .inr ⟨'@', user.reverse, by simp, by simp⟩
  rw [hostText, hauthority, hat, List.reverse_reverse]
  refine takeWhile_append_stop (fun c hc => decide_eq_true ?_) ?_
  · rintro rfl
    exact h.text_colon hc
  · rcases h.port_colon with hport | ⟨digits, hport⟩
    · exact .inl hport
    · exact .inr ⟨':', digits, hport, by simp⟩

theorem exists_parts {rest : List Char} (hrest : url.toList = "https://".toList ++ rest) :
    ∃ info port tail, Parts url info (hostText url) port tail := by
  set a := authority url with ha
  set post := (a.reverse.takeWhile (· ≠ '@')).reverse with hpost
  have hsplit : (a.reverse.dropWhile (· ≠ '@')).reverse ++ post = a := by
    rw [hpost, ← List.reverse_append, List.takeWhile_append_dropWhile, List.reverse_reverse]
  have htext : hostText url ++ post.dropWhile (· ≠ ':') = post :=
    List.takeWhile_append_dropWhile
  refine ⟨(a.reverse.dropWhile (· ≠ '@')).reverse, post.dropWhile (· ≠ ':'),
    rest.dropWhile (· ∉ authorityEnds), ?_, ?_, ?_, ?_, ?_, ?_, ?_⟩
  · rw [htext, hsplit, ha, authority_eq hrest, List.takeWhile_append_dropWhile, hrest]
  · intro c hc
    rw [htext, hsplit] at hc
    simpa using List.mem_takeWhile_imp hc
  · rcases dropWhile_stop (· ≠ '@') a.reverse with h | ⟨c, user, h, hc⟩
    · exact .inl (by rw [h]; rfl)
    · exact .inr ⟨user.reverse, by simp_all⟩
  · rw [htext]
    exact fun h => by simpa using List.mem_takeWhile_imp (List.mem_reverse.mp h)
  · exact fun h => by simpa using List.mem_takeWhile_imp h
  · rcases dropWhile_stop (· ≠ ':') post with h | ⟨c, digits, h, hc⟩
    · exact .inl h
    · exact .inr ⟨digits, by simp_all⟩
  · simpa using dropWhile_stop (· ∉ authorityEnds) rest

/-- After `https://`, and the user information if there is some, the URL has an STS name up to
its end or the port, path, query or fragment. -/
def StsUrl (url : String) : Prop :=
  ∃ info text port tail, Parts url info text port tail ∧ plainName text = true ∧
    IsStsHost (text.map Char.toLower)

/-- A request goes to STS if its URL says so, and only then, hosts apart that are not plain ASCII
names. -/
theorem sts_replay_iff (hok : validate decode fromStr url body headersJson = .ok request)
    (hhost : host other request.url = some name) :
    (StsUrl url → IsStsHost name) ∧
      (IsStsHost name → StsUrl url ∨ plainName (hostText url) = false ∧ other url = some name) := by
  obtain ⟨hurl, rest, hrest⟩ := validate_ok hok
  rw [hurl, host] at hhost
  constructor
  · rintro ⟨info, text, port, tail, hparts, hplain, hsts⟩
    rw [hparts.hostText_eq, if_pos hplain] at hhost
    obtain rfl := Option.some.inj hhost
    exact hsts
  · intro hsts
    split at hhost
    · next hplain =>
      obtain rfl := Option.some.inj hhost
      obtain ⟨info, port, tail, hparts⟩ := exists_parts hrest
      exact .inl ⟨info, _, port, tail, hparts, hplain, hsts⟩
    · next hplain => exact .inr ⟨by simpa using hplain, hhost⟩

theorem sts_replay_regional :
    IsStsHost "sts.eu-west-1.amazonaws.com".toList := by
  refine (@sts_replay_iff (fun _ => .ok []) (fun _ => .ok [])
    "https://sts.x@STS.eu-west-1.amazonaws.com:443/" "" "" _ (fun _ => none) _ rfl ?_).1 ?_
  · decide +kernel
  · exact ⟨"sts.x@".toList, "STS.eu-west-1.amazonaws.com".toList, ":443".toList, ['/'],
      ⟨by decide, List.all_iff_forall_prop.mp (by decide), .inr ⟨"sts.x".toList, by decide⟩,
        by decide, by decide, .inr ⟨"443".toList, by decide⟩, .inr ⟨'/', [], by decide, by decide⟩⟩,
      by decide +kernel, .inr ⟨"eu-west-1".toList, by decide, by decide, by decide⟩⟩

theorem sts_replay_elsewhere :
    (∃ request, validate (fun _ => .ok []) (fun _ => .ok [])
        "https://sts.amazonaws.com@evil.example/" "" "" = .ok request ∧
      host (fun _ => none) request.url = some "evil.example".toList) ∧
    ¬ IsStsHost "evil.example".toList := by
  refine ⟨⟨_, rfl, by decide +kernel⟩, ?_⟩
  rintro (h | ⟨region, -, -, h⟩) <;> simp at h

end WslVault.IdentityService.AwsIam
