/-
Comments that read alike, wherever they stand.

Slicing and reading look at the text of lines, and carry their places along without looking
at them.  So two comments whose lines have the same texts are sliced, parted and read
alike.  The relation between the places is left open: `R` relates lines of one text to those
of another, and all that slicing asks of it is that they have the same content.  Reading asks
less: `ReadAlike` lists the questions that are put to a line, and lines may differ in any
text that no answer depends on.  Each stage then takes related lines to related results, and
fails on both or on neither.
-/
import DocLint.Doc.ParameterList
import DocLint.Doc.Slice
import DocLint.Proofs.Agree

namespace DocLint

namespace Doc

/-! ### Slicing -/

section Lines

variable {R : Line → Line → Prop}

/-- The same text is left of related lines. -/
structure Stripped.Alike (R : Line → Line → Prop) (s t : Stripped) : Prop where
  line : R s.line t.line
  text : s.text = t.text

/-- The bodies have the same texts, of related lines. -/
structure Body.Alike (R : Line → Line → Prop) (b c : Body) : Prop where
  opening : Option.Rel (Stripped.Alike R) b.opening c.opening
  rest : List.Forall₂ (Stripped.Alike R) b.rest c.rest

variable {ss ts : List Stripped}

theorem closeLast?_alike (h : List.Forall₂ (Stripped.Alike R) ss ts) :
    Option.Rel (List.Forall₂ (Stripped.Alike R)) (closeLast? ss) (closeLast? ts) := by
  induction h with
  | nil => exact Option.Rel.none
  | @cons s t _ _ hst hmore ih =>
      cases hmore with
      | nil =>
          rw [closeLast?, closeLast?, hst.text]
          split
          · exact Option.Rel.some (List.Forall₂.cons ⟨hst.line, rfl⟩ List.Forall₂.nil)
          · exact Option.Rel.none
      | @cons s' t' ss ts _ _ =>
          show Option.Rel _ ((closeLast? (s' :: ss)).map (s :: ·)) ((closeLast? (t' :: ts)).map (t :: ·))
          exact optionRel_map ih fun _ _ hclosed => List.Forall₂.cons hst hclosed

theorem dropBlankLast_alike (h : List.Forall₂ (Stripped.Alike R) ss ts) :
    List.Forall₂ (Stripped.Alike R) (dropBlankLast ss) (dropBlankLast ts) := by
  induction h with
  | nil => exact List.Forall₂.nil
  | @cons s t _ _ hst hmore ih =>
      cases hmore with
      | nil =>
          rw [dropBlankLast, dropBlankLast, hst.text]
          split
          · exact List.Forall₂.nil
          · exact List.Forall₂.cons hst List.Forall₂.nil
      | @cons s' t' ss ts _ _ =>
          show List.Forall₂ _ (s :: dropBlankLast (s' :: ss)) (t :: dropBlankLast (t' :: ts))
          exact List.Forall₂.cons hst ih

theorem hasGutter_alike (h : List.Forall₂ (Stripped.Alike R) ss ts) :
    hasGutter ss = hasGutter ts := by
  have htexts : ∀ us : List Stripped, (us.filter fun s => !Text.allBlank s.text).map
      (fun s => Text.trimLeft s.text) =
        ((us.map Stripped.text).filter fun t => !Text.allBlank t).map Text.trimLeft := by
    intro us
    rw [List.filter_map, List.map_map]
    rfl
  unfold hasGutter
  rw [htexts, htexts, map_eq_of_forall₂ (fun _ _ hst => hst.text) h]

theorem dropStar_alike {s t : Stripped} (h : s.Alike R t) :
    (dropStar s).Alike R (dropStar t) := by
  unfold dropStar
  rw [h.text]
  split
  · exact ⟨h.line, rfl⟩
  · exact h

variable (hR : ∀ l m, R l m → l.content = m.content) {head head' : Line} {more more' : List Line}
  {range range' : ByteRange}

include hR

theorem lineBody_alike (h : List.Forall₂ R more more') :
    Agree (fun _ _ => True) (Body.Alike R) (lineBody range more) (lineBody range' more') := by
  have hstrip : ∀ l m, R l m → Agree (fun _ _ => True) (Stripped.Alike R)
      (stripLineMarker range l) (stripLineMarker range' m) := by
    intro l m hlm
    unfold stripLineMarker
    rw [hR l m hlm]
    simp only
    split
    · exact Agree.ok ⟨hlm, rfl⟩
    · exact Agree.error trivial
  refine (Agree.mapM hstrip h).map ?_
  intro ss ts hst
  exact ⟨Option.Rel.none, hst⟩

theorem blockBody?_alike (hhead : R head head') (h : List.Forall₂ R more more') :
    Option.Rel (Body.Alike R) (blockBody? head more) (blockBody? head' more') := by
  have hfirst : Stripped.Alike R ⟨head, (Text.trimLeft head.content).drop blockOpen.length⟩
      ⟨head', (Text.trimLeft head'.content).drop blockOpen.length⟩ :=
    ⟨hhead, by rw [hR _ _ hhead]⟩
  have hrest : List.Forall₂ (Stripped.Alike R) (more.map fun l => ⟨l, l.content⟩)
      (more'.map fun l => ⟨l, l.content⟩) := by
    rw [List.forall₂_map_left_iff, List.forall₂_map_right_iff]
    exact h.imp fun l m hlm => ⟨hlm, hR l m hlm⟩
  refine optionRel_bind (closeLast?_alike (List.Forall₂.cons hfirst hrest)) ?_
  intro ss ts hlines
  cases hlines with
  | nil => exact Option.Rel.none
  | cons hs hmore =>
      cases hmore with
      | nil => exact Option.Rel.some ⟨Option.Rel.some hs, List.Forall₂.nil⟩
      | cons ht hmore =>
          have hall := List.Forall₂.cons ht hmore
          have hkept := dropBlankLast_alike hall
          refine Option.Rel.some ⟨?_, ?_⟩
          · rw [hs.text]
            split
            · exact Option.Rel.none
            · exact Option.Rel.some hs
          · simp only
            rw [hasGutter_alike hall]
            split
            · rw [List.forall₂_map_left_iff, List.forall₂_map_right_iff]
              exact hkept.imp fun _ _ => dropStar_alike
            · exact hkept

/-- **Related lines have bodies that are alike**, or neither have one. -/
theorem bodyOf_alike (hhead : R head head') (h : List.Forall₂ R more more') :
    Agree (fun _ _ => True) (Body.Alike R) (bodyOf range head more) (bodyOf range' head' more') := by
  have hblock := blockBody?_alike hR hhead h
  unfold bodyOf
  rw [hR _ _ hhead]
  split
  · exact lineBody_alike hR (List.Forall₂.cons hhead h)
  split
  · generalize blockBody? head more = x at hblock ⊢
    generalize blockBody? head' more' = y at hblock ⊢
    cases hblock with
    | none => exact Agree.error trivial
    | some hbody => exact Agree.ok hbody
  · exact Agree.error trivial

end Lines

/-- The same text in the places of related lines. -/
structure PlacedAlike (R : Line → Line → Prop) (l m : DocLine) : Prop where
  content : l.content = m.content
  places : ∃ x y, R x y ∧ l.offset = x.textOffset ∧ m.offset = y.textOffset

theorem docLines_alike {R : Line → Line → Prop} {b c : Body} (h : b.Alike R c) :
    List.Forall₂ (PlacedAlike R) b.docLines c.docLines := by
  have htexts : (b.rest.map fun s => { s with text := expandTabs 0 s.text }).map (·.text) =
      (c.rest.map fun s => { s with text := expandTabs 0 s.text }).map (·.text) := by
    rw [List.map_map, List.map_map]
    refine map_eq_of_forall₂ ?_ h.rest
    intro s t hst
    simp only [Function.comp_apply]
    rw [hst.text]
  unfold Body.docLines
  simp only
  rw [htexts]
  refine List.rel_append ?_ ?_
  · have hopening := h.opening
    generalize b.opening = x at hopening ⊢
    generalize c.opening = y at hopening ⊢
    cases hopening with
    | none => exact List.Forall₂.nil
    | some hst =>
        refine List.Forall₂.cons ⟨?_, _, _, hst.line, rfl, rfl⟩ List.Forall₂.nil
        show Text.trimRight _ = Text.trimRight _
        rw [hst.text]
  · rw [List.forall₂_map_left_iff, List.forall₂_map_right_iff, List.forall₂_map_left_iff,
      List.forall₂_map_right_iff]
    refine h.rest.imp ?_
    intro s t hst
    refine ⟨?_, _, _, hst.line, rfl, rfl⟩
    show Text.trimRight _ = Text.trimRight _
    rw [hst.text]

/-- **Ranges that cover related lines are sliced into the same texts**, or refused in both tables. -/
theorem slice_alike {R : Line → Line → Prop} (hR : ∀ l m, R l m → l.content = m.content)
    {table table' : LineTable} {range range' : ByteRange}
    (h : Agree (fun _ _ => True) (List.Forall₂ R) (table.linesInRange range)
      (table'.linesInRange range')) :
    Agree (fun _ _ => True) (List.Forall₂ (PlacedAlike R)) (slice range table)
      (slice range' table') := by
  unfold slice
  refine h.bind ?_
  intro ls ms hlines
  cases hlines with
  | nil => exact Agree.error trivial
  | cons hhead hmore =>
      refine (bodyOf_alike hR hhead hmore).bind ?_
      intro body body' hbody
      exact Agree.ok (docLines_alike hbody)

/-! ### Sections and lists -/

/-- Two items tell the same: both are callouts or neither is, and without the keyword they have the
same text before the colon and document the same parameters, of those in question. -/
structure ItemAlike (N : Text → Prop) (form : ListForm) (t u : Text) : Prop where
  callout : isCallout t = isCallout u
  colon : (withoutKeyword form t).contains ':' = (withoutKeyword form u).contains ':'
  front : Text.beforeChar ':' (withoutKeyword form t) = Text.beforeChar ':' (withoutKeyword form u)
  documents : ∀ p, N p → (p ++ [':']).isPrefixOf (withoutKeyword form t) =
    (p ++ [':']).isPrefixOf (withoutKeyword form u)

/-- Related lines give the same answers to all that is asked of a line when a comment is read for
parameters in question. -/
structure ReadAlike (N : Text → Prop) (R : DocLine → DocLine → Prop) : Prop where
  isBlank : ∀ {l m}, R l m → l.isBlank = m.isBlank
  indent : ∀ {l m}, R l m → l.indent = m.indent
  header : ∀ {l m}, R l m →
    (Text.trim l.content = parametersHeader ↔ Text.trim m.content = parametersHeader)
  item : ∀ {l m}, R l m → ∀ form,
    Option.Rel (ItemAlike N form) (bulletText? l.content) (bulletText? m.content)

/-- Lines with the same text read alike. -/
theorem readAlike_of_content {R : DocLine → DocLine → Prop}
    (hR : ∀ l m, R l m → l.content = m.content) (N : Text → Prop) : ReadAlike N R where
  isBlank := fun hlm => by unfold DocLine.isBlank; rw [hR _ _ hlm]
  indent := fun hlm => by unfold DocLine.indent; rw [hR _ _ hlm]
  header := fun hlm => by rw [hR _ _ hlm]
  item := fun {l m} hlm form => by
    rw [hR _ _ hlm]
    cases bulletText? m.content with
    | none => exact Option.Rel.none
    | some t => exact Option.Rel.some ⟨rfl, rfl, rfl, fun _ _ => rfl⟩

section DocLines

variable {N : Text → Prop} {R : DocLine → DocLine → Prop}

structure Sections.Alike (R : DocLine → DocLine → Prop) (s t : Sections) : Prop where
  summary : List.Forall₂ R s.summary t.summary
  separator : Option.Rel R s.separator t.separator
  parameters : List.Forall₂ R s.parameters t.parameters

/-- Entries of the same name on related lines, which document the same parameters. -/
structure Entry.Alike (N : Text → Prop) (R : DocLine → DocLine → Prop) (e f : Entry) : Prop where
  name : e.name = f.name
  documents : ∀ p, N p → e.documents p = f.documents p
  line : R e.line f.line

/-- The same fault on related lines. -/
structure ListError.Alike (R : DocLine → DocLine → Prop) (e f : ListError) : Prop where
  fault : e.fault = f.fault
  line : R e.line f.line

variable (hR : ReadAlike N R) {ls ms : List DocLine} {form : ListForm}

include hR

/-- **Related lines part in the same place**, or in none. -/
theorem sections_alike (h : List.Forall₂ R ls ms) :
    Agree (fun e f => e = f) (Sections.Alike R) (Sections.ofLines ls) (Sections.ofLines ms) := by
  have hboundary : ∀ l m, R l m → (!isBoundary l) = !isBoundary m := by
    intro l m hlm
    have hheader : (Text.trim l.content == parametersHeader) =
        (Text.trim m.content == parametersHeader) := by
      rw [Bool.eq_iff_iff, beq_iff_eq, beq_iff_eq]
      exact hR.header hlm
    unfold isBoundary
    rw [hR.isBlank hlm, hheader]
  have hsummary := forall₂_takeWhile hboundary h
  have hrest := forall₂_dropWhile hboundary h
  have hlength := h.length_eq
  unfold Sections.ofLines
  simp only
  generalize ls.dropWhile (fun l => !isBoundary l) = x at hrest ⊢
  generalize ms.dropWhile (fun l => !isBoundary l) = y at hrest ⊢
  cases hrest with
  | nil => exact Agree.error (by rw [hlength])
  | @cons l m _ _ hlm hmore =>
      simp only
      rw [hR.isBlank hlm]
      split
      · exact Agree.ok ⟨hsummary, Option.Rel.some hlm, hmore⟩
      · exact Agree.ok ⟨hsummary, Option.Rel.none, List.Forall₂.cons hlm hmore⟩

omit hR in
theorem readEntry_alike {l m : DocLine} (h : R l m) {t u : Text} (htu : ItemAlike N form t u) :
    Agree (ListError.Alike R) (Entry.Alike N R) (readEntry form l t) (readEntry form m u) := by
  unfold readEntry
  simp only
  rw [htu.colon, htu.front]
  split
  · exact Agree.error ⟨rfl, h⟩
  split
  · exact Agree.error ⟨rfl, h⟩
  · exact Agree.ok ⟨rfl, htu.documents, h⟩

theorem readItems_alike (indent : Nat) (h : List.Forall₂ R ls ms) :
    Agree (ListError.Alike R) (List.Forall₂ (Entry.Alike N R)) (readItems form indent ls)
      (readItems form indent ms) := by
  induction h with
  | nil => exact Agree.ok List.Forall₂.nil
  | @cons l m _ _ hlm _ ih =>
      have hitem := hR.item hlm form
      rw [readItems, readItems, hR.indent hlm]
      split
      · exact Agree.error ⟨rfl, hlm⟩
      split
      · exact ih
      generalize bulletText? l.content = x at hitem ⊢
      generalize bulletText? m.content = y at hitem ⊢
      cases hitem with
      | none => exact Agree.error ⟨rfl, hlm⟩
      | some htu =>
          simp only
          rw [htu.callout]
          split
          · exact Agree.ok List.Forall₂.nil
          · refine (readEntry_alike hlm htu).bind ?_
            intro e f hef
            refine ih.bind ?_
            intro es fs hall
            exact Agree.ok (List.Forall₂.cons hef hall)

omit hR in
structure ListAlike (N : Text → Prop) (R : DocLine → DocLine → Prop) (s t : ParameterList) :
    Prop where
  form : s.form = t.form
  entries : List.Forall₂ (Entry.Alike N R) s.entries t.entries

/-- **Related lines are read as the same list**, or refused for the same fault. -/
theorem ofLines_alike (h : List.Forall₂ R ls ms) :
    Agree (ListError.Alike R) (ListAlike N R) (ParameterList.ofLines ls)
      (ParameterList.ofLines ms) := by
  have hrun : List.Forall₂ R (ParameterList.firstRun ls) (ParameterList.firstRun ms) := by
    refine forall₂_takeWhile ?_ (forall₂_dropWhile (fun _ _ hlm => hR.isBlank hlm) h)
    intro l m hlm
    rw [hR.isBlank hlm]
  unfold ParameterList.ofLines
  generalize ParameterList.firstRun ls = x at hrun ⊢
  generalize ParameterList.firstRun ms = y at hrun ⊢
  cases hrun with
  | nil => exact Agree.ok ⟨rfl, List.Forall₂.nil⟩
  | @cons l m more more' hlm hmore =>
      simp only
      rw [hR.indent hlm]
      by_cases hheader : Text.trim l.content = parametersHeader
      · rw [if_pos hheader, if_pos ((hR.header hlm).mp hheader)]
        have hbody : List.Forall₂ R (more.takeWhile fun x => decide (l.indent < x.indent))
            (more'.takeWhile fun x => decide (m.indent < x.indent)) := by
          refine forall₂_takeWhile ?_ hmore
          intro x y hxy
          rw [hR.indent hlm, hR.indent hxy]
        unfold ParameterList.nested
        generalize more.takeWhile (fun x => decide (l.indent < x.indent)) = x at hbody ⊢
        generalize more'.takeWhile (fun x => decide (m.indent < x.indent)) = y at hbody ⊢
        have hfirst : (x.head?.map DocLine.indent).getD 0 = (y.head?.map DocLine.indent).getD 0 := by
          cases hbody with
          | nil => rfl
          | cons hxy _ => exact hR.indent hxy
        simp only
        rw [hfirst]
        refine (readItems_alike hR _ hbody).bind ?_
        intro es fs hall
        exact Agree.ok ⟨rfl, hall⟩
      · rw [if_neg hheader, if_neg fun h => hheader ((hR.header hlm).mpr h)]
        refine (readItems_alike hR _ (List.Forall₂.cons hlm hmore)).map ?_
        intro es fs hall
        exact ⟨rfl, hall⟩

end DocLines

end Doc

end DocLint
