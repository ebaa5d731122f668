/-
Declarations stand at their keywords.

The search for heads counts characters of the mask, and a declaration is placed in the bytes of the
text.  In between nothing is lost: the mask has its characters where the text has them, and those of
a keyword are none that was blanked (`keyword_of_mem_heads`).  So a declaration has the place of
its keyword, and where the keyword is looked up by line and column that is the same place
(`placedAt_of_declaration?`).  A head that is found later begins further on, and so does what it
declares (`declarations_placed`).
-/
import DocLint.Proofs.Agree
import DocLint.Proofs.Source.Character
import DocLint.Proofs.Swift.Declaration

namespace DocLint

namespace Swift

/-! ### Keywords in the mask and in the text -/

/-- What is not blank in a mask stands for itself. -/
theorem Masks.eq_of_not_blank {c m : Char} (h : Masks c m) (hm : Text.isBlank m = false) : m = c := by
  rcases h with rfl | rfl
  · rfl
  · rw [isBlank_blanked] at hm
    cases hm

theorem eq_of_masks_of_not_blank {s m : Text} (h : List.Forall₂ Masks s m)
    (hm : ∀ c ∈ m, Text.isBlank c = false) : m = s := by
  induction h with
  | nil => rfl
  | cons hcm _ ih =>
      have hchar := hcm.eq_of_not_blank (hm _ (by simp))
      rw [hchar, ih fun x hx => hm x (by simp [hx])]

/-- A part of a mask without blanks is a part of its text, in the same place. -/
theorem prefix_drop_of_mask {t part : Text} {i : Nat} (hpart : part <+: (mask t).drop i)
    (hblank : ∀ c ∈ part, Text.isBlank c = false) : part <+: t.drop i := by
  obtain ⟨rest, hrest⟩ := hpart
  have hmasks : List.Forall₂ (fun m c => Masks c m) (part ++ rest) (t.drop i) := by
    rw [hrest]
    exact List.Forall₂.flip (List.forall₂_drop i (mask_forall₂ t))
  obtain ⟨part', rest', htext, hfirst, -⟩ := exists_append_of_forall₂ hmasks
  obtain rfl := eq_of_masks_of_not_blank (List.Forall₂.flip hfirst) hblank
  exact ⟨rest', htext.symm⟩

/-- **The keyword of a head stands in the mask and in the text.** -/
theorem keyword_of_mem_heads {t : Text} {head : Head} (h : head ∈ heads (mask t)) :
    head.signature.kind.keyword <+: (mask t).drop head.start ∧
      head.signature.kind.keyword <+: t.drop head.start := by
  obtain ⟨before, rest, after, hmask, hstart, hsig, -⟩ := mem_heads h
  have hkeyword : head.signature.kind.keyword <+: (mask t).drop head.start := by
    rw [hmask, hstart, List.drop_left]
    exact (of_signature? hsig).1
  exact ⟨hkeyword, prefix_drop_of_mask hkeyword fun c hc => DeclarationKind.not_blank_of_mem_keyword hc⟩

/-- So there is a letter in its place, and no line break. -/
theorem exists_letter_of_mem_heads {t : Text} {head : Head} (h : head ∈ heads (mask t)) :
    ∃ c, t[head.start]? = some c ∧ c ≠ '\r' ∧ c ≠ '\n' := by
  obtain ⟨u, hu⟩ := (keyword_of_mem_heads h).2
  obtain ⟨c, r, hkeyword⟩ := List.exists_cons_of_ne_nil head.signature.kind.keyword_ne_nil
  have hc : c ∈ head.signature.kind.keyword := by
    rw [hkeyword]
    simp
  have hblank := DeclarationKind.not_blank_of_mem_keyword hc
  refine ⟨c, ?_, ?_, ?_⟩
  · rw [← List.head?_drop, ← hu, hkeyword]
    rfl
  · rintro rfl
    cases hblank
  · rintro rfl
    cases hblank

end Swift

open Swift

/-! ### The place of a declaration -/

/-- A declaration has the place of the keyword of its head. -/
structure Declaration.PlacedAt (f : SourceFile) (head : Head) (d : Declaration) : Prop where
  signature : d.signature = head.signature
  /-- The offset counts the bytes in front of the keyword. -/
  offset : d.offset = (Text.utf8 (f.contents.take head.start)).length
  /-- The bytes from there on begin with the keyword. -/
  bytes : d.signature.kind.keyword.utf8 <+: f.contents.utf8.drop d.offset
  /-- No character of the keyword is another one in the mask. -/
  text : d.signature.kind.keyword <+: f.contents.drop head.start
  mask : d.signature.kind.keyword <+: (Swift.mask f.contents).drop head.start
  /-- The line and the column of the keyword have this offset. -/
  column : f.table.byteOffset (f.table.lineAndColumn head.start).1
    (f.table.lineAndColumn head.start).2 = .ok d.offset

namespace SourceFile

variable {f : SourceFile} {head : Head} {d : Declaration}

/-- **What a head declares has the place of its keyword.** -/
theorem placedAt_of_declaration? {lines : List MaskedLine} (hhead : head ∈ f.heads)
    (h : declaration? f.table lines head = some d) : d.PlacedAt f head := by
  obtain ⟨hmask, htext⟩ := keyword_of_mem_heads hhead
  rw [declaration?_eq hhead] at h
  obtain ⟨clause, -, rfl⟩ := Option.map_eq_some_iff.mp h
  refine ⟨rfl, (Text.length_utf8 _).symm, ?_, htext, hmask, ?_⟩
  · obtain ⟨rest, hrest⟩ := htext
    have hbytes : f.contents.utf8 = Text.utf8 (f.contents.take head.start) ++
        (head.signature.kind.keyword.utf8 ++ Text.utf8 rest) := by
      conv_lhs => rw [← List.take_append_drop head.start f.contents, ← hrest]
      simp only [Text.utf8, List.flatMap_append]
    show _ <+: List.drop (Text.byteSize (f.contents.take head.start)) f.contents.utf8
    rw [hbytes, ← Text.length_utf8, List.drop_left]
    exact List.prefix_append _ _
  · obtain ⟨c, hc, hbreak⟩ := exists_letter_of_mem_heads hhead
    exact LineTable.characterOffset_eq hc hbreak

/-- **Declarations stand in order, each at the keyword of its head.** -/
theorem declarations_placed (f : SourceFile) :
    f.declarations.Pairwise (fun d e => d.offset < e.offset) ∧
      List.Forall₂ (fun head d => Declaration.PlacedAt f head d)
        (f.heads.filter fun head => head.clause.isSome) f.declarations := by
  refine ⟨?_, ?_⟩
  · refine List.pairwise_filterMap.mpr ?_
    refine (pairwise_headsFrom 0 0 none (mask f.contents)).imp_of_mem ?_
    intro h k hmem hmem' hlt d hd e he
    rw [(placedAt_of_declaration? hmem hd).offset, (placedAt_of_declaration? hmem' he).offset,
      Text.length_utf8, Text.length_utf8]
    obtain ⟨_, hletter, -⟩ := exists_letter_of_mem_heads hmem
    exact Text.bytesBefore_lt hlt (List.getElem?_eq_some_iff.mp hletter).1
  · have hsome : f.heads.filter (fun head => head.clause.isSome) =
        f.heads.filter fun head => (declaration? f.table f.maskedLines head).isSome := by
      refine List.filter_congr fun head hhead => ?_
      rw [declaration?_eq hhead]
      exact Option.isSome_map.symm
    rw [hsome]
    exact forall₂_filter_filterMap fun head hhead d hd => placedAt_of_declaration? hhead hd

end SourceFile

end DocLint
