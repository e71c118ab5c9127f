/-
A source without a name.

The name of a type is looked for in the source, those of fields in what stands directly in their
blocks.  A source in which no name is found has no type name, and a field of it would need a name
that is in the block's direct text and not in the source.

Such names exist.  The direct text is put together from pieces, and the key, the colon and the value
may come from different ones: a comment between them, or a bracket within the key, is enough.  That
is the only way.  A name that lies in one piece is in the source as well, because pieces are
stretches of it and do not begin in the middle of a word.
-/
import GroqSnippets.Proofs.Schema.Reading
import GroqSnippets.Proofs.Source.BlockRow
import GroqSnippets.Proofs.Source.Piece

namespace GroqSnippets

/-! ### Names in one piece

Direct text is what is left when nested brackets and comments are taken out, so a key may be put
together from two pieces that do not stand next to each other in the source.  A key within one piece
is a key of the source as well.
-/

/-- Whether a match in a text that is put together from pieces lies in one of them. -/
def Match.LiesIn (found : Match) (pieces : List Text) : Prop :=
  ∃ before piece after, pieces = before ++ piece :: after
    ∧ before.flatten.length ≤ found.place.offset
    ∧ found.place.offset + found.text.length ≤ before.flatten.length + piece.length

/-- A match that lies in one piece splits the piece, and what is read before it is what stands
before it there. -/
theorem Match.LiesIn.exists_split {found : Match} {pieces : List Text} {n : Nat}
    (hlies : found.LiesIn pieces) (hn : n ≤ pieces.flatten.length)
    (hplace : found.place = (Cursor.ofText pieces.flatten).skip n)
    (htext : found.text <+: found.place.rest) :
    ∃ piece ∈ pieces, ∃ front back, piece = front ++ (found.text ++ back)
      ∧ (front ≠ [] → found.place.before = front.getLast?) := by
  obtain ⟨before, piece, after, rfl, hstart, hstop⟩ := hlies
  have hflat : (before ++ piece :: after).flatten = before.flatten ++ (piece ++ after.flatten) := by
    simp
  have hoffset : found.place.offset = n := by
    rw [hplace, Cursor.offset_skip, Cursor.ofText, Nat.zero_add, Nat.min_eq_left hn]
  rw [hoffset] at hstart hstop
  obtain ⟨k, rfl⟩ := Nat.exists_eq_add_of_le hstart
  have hk : k ≤ piece.length := by omega
  have hrest : found.place.rest = piece.drop k ++ after.flatten := by
    rw [hplace, Cursor.rest_skip, Cursor.ofText, hflat, List.drop_length_add_append,
      List.drop_append_of_le_length hk]
  have hinside : found.text <+: piece.drop k := by
    rw [hrest] at htext
    refine List.prefix_of_prefix_length_le htext (List.prefix_append _ _) ?_
    rw [List.length_drop]
    omega
  obtain ⟨back, hback⟩ := hinside
  refine ⟨piece, by simp, piece.take k, back, by rw [hback, List.take_append_drop], ?_⟩
  intro hne
  rw [hplace, Cursor.skip_eq, Cursor.ofText, hflat, List.take_length_add_append,
    List.take_append_of_le_length hk,
    List.getLast?_append_of_ne_nil _ hne, Option.or_none]

/-- A key that is found in one piece is found in every text that the piece stands in. -/
theorem Pattern.first?_ne_none_of_liesIn {key text : Text} {pieces : List Text} {found : Match}
    (hkey : key.head?.any isWordChar = true)
    (hfound : (Pattern.key key).first? (Cursor.ofText pieces.flatten) = some found)
    (hlies : found.LiesIn pieces) (hstands : ∀ piece ∈ pieces, Stands text piece) :
    (Pattern.key key).first? (Cursor.ofText text) ≠ none := by
  obtain ⟨first, rest, rfl, hword⟩ := exists_cons_of_head?_any hkey
  obtain ⟨n, hn, hmatch, -⟩ := first?_eq_some_iff.mp hfound
  obtain ⟨hboundary, gap, q, body, q', more, hrest, hgap, hq, hne, hbody, hq', hshape⟩ :=
    match?_key.mp ((place_of_match? hmatch).symm ▸ hmatch)
  have htext : found.text = first :: (rest ++ ':' :: (gap ++ q :: (body ++ [q']))) := by
    rw [hshape]
    rfl
  obtain ⟨piece, hpiece, front, back, rfl, hbefore⟩ :=
    hlies.exists_split hn (place_of_match? hmatch) ⟨more, by rw [hrest, htext]; simp⟩
  obtain ⟨a, b, rfl, hhead⟩ := hstands _ hpiece
  -- No word goes on where the key begins, neither within the piece nor at its head.
  have hbreaks : Breaks (a ++ front) := by
    by_cases hfront : front = []
    · subst hfront
      rw [List.append_nil]
      exact (hhead (by rw [List.nil_append, htext]; exact hkey)).2
    · rw [Breaks, List.getLast?_append_of_ne_nil _ hfront, ← hbefore hfront]
      rw [isWordBoundary, hrest] at hboundary
      intro c hc
      rw [hc] at hboundary
      simpa [hword] using hboundary
  intro hnone
  have hsplit : a ++ ((front ++ (found.text ++ back)) ++ b)
      = (a ++ front) ++ first :: (rest ++ ':' :: (gap ++ q :: (body ++ q' :: (back ++ b)))) := by
    rw [htext]
    simp
  have hmiss := first?_eq_none_iff.mp hnone (a ++ front).length (by rw [Cursor.ofText, hsplit]; simp)
  rw [Option.eq_none_iff_forall_ne_some] at hmiss
  refine hmiss _ (match?_key.mpr ⟨isWordBoundary_skip hsplit hword (.inr rfl) hbreaks, gap, q, body, q',
    back ++ b, ?_, hgap, hq, hne, hbody, hq', rfl⟩)
  rw [Cursor.rest_skip, Cursor.ofText, hsplit, List.drop_left]
  rfl

/-! ### Sources without a name -/

theorem directPieces_stand {source block piece : Text} (hblock : block ∈ fieldPattern.blocks source)
    (hpiece : piece ∈ directPieces block) : Stands source piece := by
  obtain ⟨⟨run, row, -, htext, -⟩, front, back, hsource⟩ :=
    Pattern.isBlock_of_mem_blocksFrom (by decide : IsCallName "defineField".toList) hblock
  have hbrace : block.contains '{' = true := by
    rw [htext]
    simp [Lexeme.text]
  have hstands := stands_of_mem_directPieces hbrace hpiece
  have hwhole : source = front ++ block ++ back := hsource.symm
  rw [hwhole]
  exact (hstands.append_left front).append_right back

/-- A source that declares no field and no type name is read as the empty schema. -/
theorem ofSource_eq_empty {source : Text} (hname : namePattern.firstValue? source = none)
    (hfields : (fieldPattern.blocks source).filterMap declaredField? = []) :
    Schema.ofSource source = Schema.empty := by
  have hread : readFields source = [] := by
    rw [readFields, hfields]
    rfl
  simp only [Schema.ofSource, Reading.ofSource, hread, hname]
  rfl

/-- **A source in which no name is found tells no type name, and no field whose name lies in one
piece.**  If every name that is found directly in its blocks lies in one piece there, it is read as
the empty schema; otherwise it has fields whose names stand nowhere in it. -/
theorem ofSource_of_nameless {source : Text}
    (hnone : namePattern.first? (Cursor.ofText source) = none) :
    (Schema.ofSource source).typeName = unknownTypeName
    ∧ (Schema.ofSource source).isUnreadable = true
    ∧ (∀ block ∈ fieldPattern.blocks source, ∀ found,
        namePattern.first? (Cursor.ofText (directText block)) = some found →
        ¬ found.LiesIn (directPieces block))
    ∧ ((∀ block ∈ fieldPattern.blocks source, ∀ found,
        namePattern.first? (Cursor.ofText (directText block)) = some found →
        found.LiesIn (directPieces block)) → Schema.ofSource source = Schema.empty) := by
  have hname : namePattern.firstValue? source = none := by
    rw [Pattern.firstValue?, hnone, Option.bind_none]
  have htypeName : (Schema.ofSource source).typeName = unknownTypeName := by
    show (namePattern.firstValue? source).getD unknownTypeName = unknownTypeName
    rw [hname, Option.getD_none]
  have hglued : ∀ block ∈ fieldPattern.blocks source, ∀ found,
      namePattern.first? (Cursor.ofText (directText block)) = some found →
      ¬ found.LiesIn (directPieces block) := by
    intro block hblock found hfound hlies
    rw [← flatten_directPieces] at hfound
    refine Pattern.first?_ne_none_of_liesIn (by decide +kernel) hfound hlies ?_ hnone
    intro piece hpiece
    exact directPieces_stand hblock hpiece
  refine ⟨htypeName, ?_, hglued, ?_⟩
  · rw [Schema.isUnreadable, htypeName, beq_self_eq_true, Bool.true_or]
  · intro hlie
    refine ofSource_eq_empty hname (List.filterMap_eq_nil_iff.mpr ?_)
    intro block hblock
    rw [Option.eq_none_iff_forall_ne_some]
    intro field hfield
    obtain ⟨hnamed, -⟩ := declaredField?_eq_some_iff.mp hfield
    obtain ⟨found, -, hfound, -⟩ := nameAndType?_eq_some_iff.mp hnamed
    exact hglued block hblock found hfound (hlie block hblock found hfound)

def titleOnly : Text :=
  (r#"defineField({title:"a",type:"b"})"#).toList

/-- What is without a name is read as the empty schema. -/
theorem ofSource_of_nameless_titleOnly :
    namePattern.first? (Cursor.ofText titleOnly) = none
    ∧ Schema.ofSource titleOnly = Schema.empty := by
  have hnone : namePattern.first? (Cursor.ofText titleOnly) = none := by decide +kernel
  have hdirect : ∀ block ∈ fieldPattern.blocks titleOnly,
      namePattern.first? (Cursor.ofText (directText block)) = none := by decide +kernel
  refine ⟨hnone, (ofSource_of_nameless hnone).2.2.2 ?_⟩
  intro block hblock found hfound
  rw [hdirect block hblock] at hfound
  cases hfound

/-- With a comment behind the key, or a bracket within it, a field is read all the same. -/
theorem ofSource_ne_empty :
    let commented := (r#"defineField({name:/**/"a",type:"b"})"#).toList
    let bracketed := (r#"defineField({na[]me:"a",type:"b"})"#).toList
    namePattern.first? (Cursor.ofText commented) = none
    ∧ Schema.ofSource commented ≠ Schema.empty
    ∧ namePattern.first? (Cursor.ofText bracketed) = none
    ∧ Schema.ofSource bracketed ≠ Schema.empty := by
  decide +kernel

end GroqSnippets
