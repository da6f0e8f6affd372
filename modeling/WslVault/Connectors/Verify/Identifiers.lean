import WslVault.Connectors.PostgresRotation

/-!
# Quoted identifiers

What the lexer of PostgreSQL makes of a quoted identifier. Each check of
`validateIdentifier` is one of its limits.
-/

namespace WslVault.Connectors

open Core

/-- The rest of a quoted identifier, and what follows it: two quotes stand for one, and a
single one ends it. -/
def lexQuoted : List Char → Option (List Char × List Char)
  | [] => none
  | c :: cs =>
    if c = '"' then
      match cs with
      | '"' :: rest => (lexQuoted rest).map (Prod.map (List.cons '"') id)
      | _ => some ([], cs)
    else if c = '\x00' then none
    else (lexQuoted cs).map (Prod.map (List.cons c) id)

def clip : Nat → List Char → List Char
  | _, [] => []
  | room, c :: cs => if c.utf8Size ≤ room then c :: clip (room - c.utf8Size) cs else []

def lexIdentifier : List Char → Option (String × List Char)
  | '"' :: rest =>
    (lexQuoted rest).bind fun (name, rest) =>
      if name = [] then none else some (String.ofList (clip 63 name), rest)
  | _ => none

def doubled (cs : List Char) : List Char := cs.flatMap fun c => if c = '"' then ['"', '"'] else [c]

theorem toList_quoteIdentifier (identifier : String) :
    (quoteIdentifier identifier).toList = '"' :: (doubled identifier.toList ++ ['"']) := by
  have hreplace (cs : List Char) : Text.replaceChars ['"'] ['"', '"'] 0 cs = doubled cs := by
    induction cs with
    | nil => rfl
    | cons c cs ih =>
      rw [Text.replaceChars, doubled, List.flatMap_cons, ← doubled, ← ih]
      by_cases hc : c = '"'
      · simp [hc]
      · simp [hc, Ne.symm hc]
  simp [quoteIdentifier, Text.replace, hreplace]

theorem lexQuoted_doubled {cs following : List Char} (hnul : '\x00' ∉ cs)
    (hfollowing : following.head? ≠ some '"') :
    lexQuoted (doubled cs ++ '"' :: following) = some (cs, following) := by
  induction cs with
  | nil => cases following <;> simp_all [doubled, lexQuoted]
  | cons c cs ih =>
    obtain ⟨hc, hcs⟩ := not_or.mp (mt List.mem_cons.mpr hnul)
    have ih := ih hcs
    rw [doubled, List.flatMap_cons, ← doubled]
    by_cases hquote : c = '"'
    · simp [hquote, lexQuoted, ih]
    · rw [if_neg hquote, List.singleton_append, List.cons_append, lexQuoted.eq_def]
      simp [hquote, ih, Ne.symm hc]

theorem clip_of_le {cs : List Char} {room : Nat} (h : (String.ofList cs).utf8ByteSize ≤ room) :
    clip room cs = cs := by
  induction cs generalizing room with
  | nil => rfl
  | cons c cs ih =>
    have hsize : (String.ofList (c :: cs)).utf8ByteSize =
        c.utf8Size + (String.ofList cs).utf8ByteSize := by
      simp
    rw [clip, if_pos (by omega), ih (by omega)]

/-- An identifier that is accepted is read back from its quoted form, whatever follows. -/
theorem quoted_identifier_read {identifier following : String}
    (hok : validateIdentifier identifier = .ok ())
    (hfollowing : following.toList.head? ≠ some '"') :
    lexIdentifier (quoteIdentifier identifier ++ following).toList =
      some (identifier, following.toList) := by
  unfold validateIdentifier at hok
  split_ifs at hok with hne hsize hnul
  have hlex := lexQuoted_doubled hnul hfollowing
  have hclip : clip 63 identifier.toList = identifier.toList :=
    clip_of_le (by rw [String.ofList_toList]; omega)
  rw [String.toList_append, toList_quoteIdentifier, List.cons_append, List.append_assoc,
    lexIdentifier, List.singleton_append, hlex]
  simp [hne, hclip]

theorem quoted_identifier_read_quotes :
    lexIdentifier (quoteIdentifier "\"; DROP ROLE \"\"" ++ " WITH LOGIN").toList =
      some ("\"; DROP ROLE \"\"", " WITH LOGIN".toList) :=
  quoted_identifier_read (by decide) (by decide)

end WslVault.Connectors
