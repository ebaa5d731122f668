/-
Arrows that are put into code, and read off it again.

Offsets count the bytes of the source, in which there is no arrow.  So the arrows are put in from
the last one on: none of those that are in already stands in front of the place of the next one.
The other way round every arrow is met with the characters of the source that come before it, and
these are the bytes that its offset counts.

`reads_iff_marked` says that the two ways undo each other.  A source and offsets are read off one
code only, and off some code just if the source holds no arrow and the offsets come in order, each
of them between two characters.
-/
import DocLint.Proofs.Text.Bytes
import DocLint.Rule.Example

namespace DocLint

namespace Text

/-! ### Characters that are put in -/

/-- Does an offset in bytes lie between two characters, or at one of the ends? -/
def IsBoundary (t : Text) (n : Nat) : Prop := ∃ front rest, t = front ++ rest ∧ front.byteSize = n

/-- The text with a character put in behind so many bytes. -/
def insertAt (n : Nat) (c : Char) (t : Text) : Text :=
  takeBytes n t ++ c :: t.drop (takeBytes n t).length

variable {t : Text} {n : Nat}

theorem IsBoundary.le_byteSize (h : t.IsBoundary n) : n ≤ t.byteSize := by
  obtain ⟨front, rest, rfl, rfl⟩ := h
  rw [byteSize_append]
  exact Nat.le_add_right _ _

/-- A boundary behind the front part is one of the rest. -/
theorem IsBoundary.of_append {front rest : Text} {m : Nat}
    (h : IsBoundary (front ++ rest) (front.byteSize + m)) : rest.IsBoundary m := by
  obtain ⟨before, behind, hsplit, hsize⟩ := h
  rcases List.append_eq_append_iff.mp hsplit with ⟨more, rfl, rfl⟩ | ⟨more, rfl, rfl⟩
  · rw [byteSize_append] at hsize
    exact ⟨more, behind, rfl, by omega⟩
  · rw [byteSize_append] at hsize
    have hmore : more = [] := eq_nil_of_byteSize_eq_zero (by omega)
    subst hmore
    exact ⟨[], _, rfl, by simp at hsize ⊢; omega⟩

theorem takeBytes_add (n : Nat) (front rest : Text) :
    takeBytes (byteSize front + n) (front ++ rest) = front ++ takeBytes n rest := by
  induction front with
  | nil => simp
  | cons c front ih =>
      rw [List.cons_append, byteSize_cons, takeBytes, if_pos (by omega),
        show c.utf8Size + byteSize front + n - c.utf8Size = byteSize front + n by omega, ih]
      rfl

/-- What stands in front stays there. -/
theorem insertAt_add (n : Nat) (c : Char) (front rest : Text) :
    insertAt (front.byteSize + n) c (front ++ rest) = front ++ insertAt n c rest := by
  unfold insertAt
  rw [takeBytes_add, List.length_append, List.drop_length_add_append, List.append_assoc]

theorem insertAt_zero (c : Char) (t : Text) : insertAt 0 c t = c :: t := by
  have hnone : takeBytes 0 t = [] := eq_nil_of_byteSize_eq_zero
    (Nat.le_zero.mp (byteSize_takeBytes_le 0 t))
  unfold insertAt
  rw [hnone]
  rfl

theorem insertAt_byteSize (c : Char) (front rest : Text) :
    insertAt front.byteSize c (front ++ rest) = front ++ c :: rest := by
  have h := insertAt_add 0 c front rest
  rwa [Nat.add_zero, insertAt_zero] at h

@[simp] theorem utf8_append (s t : Text) : utf8 (s ++ t) = utf8 s ++ utf8 t := List.flatMap_append

end Text

namespace Example

open Text

/-! ### Arrows that are put in -/

/-- The code of a source with an arrow at each of the offsets. -/
def marked (source : Text) (offsets : List Nat) : Text :=
  offsets.foldr (fun n code => code.insertAt n marker) source

/-- The same in bytes: those of an arrow are put in behind as many bytes as each offset says. -/
def markedBytes (source : List UInt8) (offsets : List Nat) : List UInt8 :=
  offsets.foldr (fun n bytes => bytes.take n ++ utf8 [marker] ++ bytes.drop n) source

/-- Offsets at which arrows can be put into a source. -/
structure Placed (source : Text) (offsets : List Nat) : Prop where
  /-- The source holds no arrow of its own. -/
  noMarker : marker ∉ source
  ordered : offsets.Pairwise (· ≤ ·)
  /-- No arrow stands within the bytes of a character. -/
  boundary : ∀ n ∈ offsets, source.IsBoundary n

variable {source front : Text} {offsets more : List Nat} {n : Nat}

/-- Behind a part of the source arrows are put in as into the rest alone. -/
theorem marked_append (front rest : Text) (offsets : List Nat) :
    marked (front ++ rest) (offsets.map (front.byteSize + ·)) = front ++ marked rest offsets := by
  induction offsets with
  | nil => rfl
  | cons n more ih =>
      change insertAt (front.byteSize + n) marker
        (marked (front ++ rest) (more.map (front.byteSize + ·))) = _
      rw [ih, insertAt_add]
      rfl

/-- Below the first arrow the others are placed in the rest of the source. -/
theorem Placed.exists_split (h : Placed source (n :: more)) :
    ∃ front rest later, source = front ++ rest ∧ front.byteSize = n ∧ more = later.map (n + ·) ∧
      Placed rest later := by
  obtain ⟨front, rest, rfl, rfl⟩ := h.boundary n (by simp)
  obtain ⟨hfirst, hordered⟩ := List.pairwise_cons.mp h.ordered
  have hmore : more = (more.map (· - front.byteSize)).map (front.byteSize + ·) := by
    rw [List.map_map]
    conv => lhs; rw [← List.map_id more]
    refine List.map_congr_left ?_
    intro m hm
    have hle := hfirst m hm
    simp only [id, Function.comp_apply]
    omega
  refine ⟨front, rest, more.map (· - front.byteSize), rfl, rfl, hmore, ?_, ?_, ?_⟩
  · exact fun hmem => h.noMarker (List.mem_append_right front hmem)
  · exact List.Pairwise.map _ (fun a b hab => by omega) hordered
  · intro m hm
    obtain ⟨k, hk, rfl⟩ := List.mem_map.mp hm
    have hle := hfirst k hk
    have hboundary : (front ++ rest).IsBoundary (front.byteSize + (k - front.byteSize)) := by
      rw [show front.byteSize + (k - front.byteSize) = k by omega]
      exact h.boundary k (List.mem_cons_of_mem _ hk)
    exact hboundary.of_append

/-- The first arrow parts the source, and the others are behind it. -/
theorem marked_cons {rest : Text} {later : List Nat} :
    marked (front ++ rest) (front.byteSize :: later.map (front.byteSize + ·)) =
      front ++ marker :: marked rest later := by
  change insertAt front.byteSize marker
    (marked (front ++ rest) (later.map (front.byteSize + ·))) = _
  rw [marked_append, insertAt_byteSize]

/-- Putting arrows in means the same for characters and for bytes. -/
theorem utf8_marked (h : Placed source offsets) :
    utf8 (marked source offsets) = markedBytes source.utf8 offsets := by
  induction offsets with
  | nil => rfl
  | cons n more ih =>
      have hmore : Placed source more := ⟨h.noMarker, (List.pairwise_cons.mp h.ordered).2,
        fun m hm => h.boundary m (List.mem_cons_of_mem n hm)⟩
      obtain ⟨front, rest, later, rfl, rfl, rfl, -⟩ := h.exists_split
      have hlength : (utf8 front).length = front.byteSize := length_utf8 front
      have hbytes := ih hmore
      rw [marked_append, utf8_append] at hbytes
      change _ = (markedBytes _ _).take front.byteSize ++ utf8 [marker] ++
        (markedBytes _ _).drop front.byteSize
      rw [marked_cons, ← hbytes, List.take_left' hlength, List.drop_left' hlength,
        List.append_assoc, ← utf8_append, ← utf8_append]
      rfl

/-! ### Arrows that are read off -/

theorem offsetsFrom_add (k n : Nat) (t : Text) :
    offsetsFrom (k + n) t = (offsetsFrom n t).map (k + ·) := by
  induction t generalizing n with
  | nil => rfl
  | cons c r ih =>
      unfold offsetsFrom
      split
      · rw [ih, List.map_cons]
      · rw [Nat.add_assoc, ih]

/-- What holds no arrow moves the arrows behind it. -/
theorem offsetsFrom_append (h : marker ∉ front) (n : Nat) (rest : Text) :
    offsetsFrom n (front ++ rest) = offsetsFrom (n + front.byteSize) rest := by
  induction front generalizing n with
  | nil => rfl
  | cons c front ih =>
      have hc : c ≠ marker := fun heq => h (heq ▸ List.mem_cons_self)
      rw [List.cons_append, offsetsFrom, if_neg hc,
        ih (fun hmem => h (List.mem_cons_of_mem c hmem)), byteSize_cons, Nat.add_assoc]

theorem length_offsetsFrom (n : Nat) (t : Text) :
    (offsetsFrom n t).length = t.count marker := by
  induction t generalizing n with
  | nil => rfl
  | cons c r ih =>
      rw [offsetsFrom]
      split
      · rename_i h
        rw [List.length_cons, ih, h, List.count_cons_self]
      · rename_i h
        rw [ih, List.count_cons_of_ne h]

/-- The characters of a text that are no arrows. -/
def unmarked (t : Text) : Text := t.filter (· != marker)

theorem unmarked_cons_marker (r : Text) : unmarked (marker :: r) = unmarked r := by
  simp [unmarked]

theorem unmarked_cons {c : Char} (h : c ≠ marker) (r : Text) :
    unmarked (c :: r) = c :: unmarked r := by
  simp [unmarked, h]

theorem unmarked_append (s t : Text) : unmarked (s ++ t) = unmarked s ++ unmarked t :=
  List.filter_append s t

theorem unmarked_of_noMarker (h : marker ∉ front) : unmarked front = front := by
  refine List.filter_eq_self.mpr ?_
  intro c hc
  rw [bne_iff_ne]
  rintro rfl
  exact h hc

/-- An arrow stands at a boundary of what is left without arrows, and no arrow before it. -/
theorem placed_offsetsFrom (t : Text) : Placed (unmarked t) (offsetsFrom 0 t) := by
  induction t with
  | nil => exact ⟨by simp [unmarked], by simp [offsetsFrom], by simp [offsetsFrom]⟩
  | cons c r ih =>
      by_cases hc : c = marker
      · subst hc
        rw [unmarked_cons_marker, offsetsFrom, if_pos rfl]
        refine ⟨ih.noMarker, List.pairwise_cons.mpr ⟨fun m _ => Nat.zero_le m, ih.ordered⟩, ?_⟩
        exact List.forall_mem_cons.mpr ⟨⟨[], _, rfl, rfl⟩, ih.boundary⟩
      · rw [unmarked_cons hc, offsetsFrom, if_neg hc, Nat.add_comm 0, offsetsFrom_add]
        refine ⟨?_, List.Pairwise.map _ (fun a b hab => by omega) ih.ordered, ?_⟩
        · rw [List.mem_cons]
          rintro (heq | hmem)
          · exact hc heq.symm
          · exact ih.noMarker hmem
        · intro m hm
          obtain ⟨k, hk, rfl⟩ := List.mem_map.mp hm
          obtain ⟨front, rest, hsplit, rfl⟩ := ih.boundary k hk
          exact ⟨c :: front, rest, by rw [hsplit]; rfl, rfl⟩

/-- The arrows that are read off can be put in again. -/
theorem marked_offsetsFrom (t : Text) : marked (unmarked t) (offsetsFrom 0 t) = t := by
  induction t with
  | nil => rfl
  | cons c r ih =>
      by_cases hc : c = marker
      · subst hc
        rw [unmarked_cons_marker, offsetsFrom, if_pos rfl]
        change insertAt 0 marker (marked (unmarked r) (offsetsFrom 0 r)) = _
        rw [ih, insertAt_zero]
      · have hmove := marked_append [c] (unmarked r) (offsetsFrom 0 r)
        rw [ih] at hmove
        rw [unmarked_cons hc, offsetsFrom, if_neg hc, Nat.add_comm 0, offsetsFrom_add]
        exact hmove

/-- The arrows that are put in are read off again.  The first one parts the source, and behind it
there is an arrow less. -/
theorem offsetsFrom_marked (h : Placed source offsets) :
    unmarked (marked source offsets) = source ∧ offsetsFrom 0 (marked source offsets) = offsets := by
  induction hcount : offsets.length generalizing source offsets with
  | zero =>
      obtain rfl := List.length_eq_zero_iff.mp hcount
      have hnone := offsetsFrom_append h.noMarker 0 []
      rw [List.append_nil] at hnone
      exact ⟨unmarked_of_noMarker h.noMarker, hnone⟩
  | succ count ih =>
      obtain ⟨n, more, rfl⟩ := List.exists_cons_of_length_eq_add_one hcount
      have hno := h.noMarker
      obtain ⟨front, rest, later, rfl, rfl, rfl, hlater⟩ := h.exists_split
      have hfront : marker ∉ front := fun hmem => hno (List.mem_append_left rest hmem)
      obtain ⟨hsource, hoffsets⟩ := ih hlater (by simpa using hcount)
      rw [marked_cons]
      refine ⟨?_, ?_⟩
      · rw [unmarked_append, unmarked_cons_marker, hsource, unmarked_of_noMarker hfront]
      · rw [offsetsFrom_append hfront, offsetsFrom, if_pos rfl, Nat.zero_add]
        refine congrArg (front.byteSize :: ·) ?_
        have hmove := offsetsFrom_add front.byteSize 0 (marked rest later)
        rwa [Nat.add_zero, hoffsets] at hmove

/-- **A source and offsets are those of a code** just if arrows can be put into the source at the
offsets and the code is what this gives.  In bytes, too, putting in what has been read off gives the
code.  Each arrow has one offset, which is no further than the end of the source. -/
theorem reads_iff_marked (e : Example) (source : Text) (offsets : List Nat) :
    (e.source = source ∧ e.markerOffsets = offsets ↔
      Placed source offsets ∧ e.code = marked source offsets) ∧
    utf8 e.code = markedBytes e.source.utf8 e.markerOffsets ∧
    e.markerOffsets.length = e.code.count marker ∧
    ∀ n ∈ e.markerOffsets, n ≤ e.source.byteSize := by
  have hplaced : Placed e.source e.markerOffsets := placed_offsetsFrom e.code
  have hcode : marked e.source e.markerOffsets = e.code := marked_offsetsFrom e.code
  refine ⟨⟨?_, ?_⟩, ?_, length_offsetsFrom 0 e.code, ?_⟩
  · rintro ⟨rfl, rfl⟩
    exact ⟨hplaced, hcode.symm⟩
  · rintro ⟨hplaced, hcode⟩
    have hread := offsetsFrom_marked hplaced
    rwa [← hcode] at hread
  · rw [← utf8_marked hplaced, hcode]
  · intro n hn
    exact (hplaced.boundary n hn).le_byteSize

/-- Two arrows side by side at the end, behind a character of two bytes. -/
theorem reads_iff_marked_adjacent :
    Placed "üa".toList [0, 3, 3] ∧ "↓üa↓↓".toList = marked "üa".toList [0, 3, 3] :=
  (reads_iff_marked ⟨"↓üa↓↓".toList⟩ "üa".toList [0, 3, 3]).1.mp ⟨by decide, by decide⟩

end Example

end DocLint
