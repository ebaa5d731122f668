/-
When loading has no answer.

A configuration that is asked for is there, or it is rejected with a message.  Three things on the
way are met in neither way, and `Unanswered` lists them: a path of which the system does not tell
what it leads to, a settings file that is not UTF-8, and a setting that is objected to with a
message that cannot be written.  A reader of a format that fails on a text without rejecting it
would be a fourth, and `ReadersReject` leaves it out.  Nothing else can happen, whatever the
readers make of the texts that they read (`load_answered_iff`).

The environment is never to blame: an integer that is read from a variable can be written
(`Text.isWritableInt_of_toInt?`).
-/
import Mathlib
import DocLint.Config.Load
import DocLint.Json.Reader
import DocLint.Proofs.Config.Overlay
import DocLint.Proofs.Text.Integer

namespace DocLint

namespace Text

/-- Bytes are the encoding of a text or they are not UTF-8. -/
theorem ofUtf8?_eq_none_iff {bytes : ByteArray} : ofUtf8? bytes = none ↔ ¬bytes.IsValidUTF8 := by
  unfold ofUtf8? String.fromUTF8?
  rw [Option.map_eq_none_iff]
  split
  · simp_all
  · simp_all

end Text

/-! ### Settings that are objected to -/

namespace Configuration

variable {c : Configuration}

/-- A pair is objected to by showing the key or the value. -/
theorem Objection.shownValues {pair : Value × Value} {error : SettingError}
    (h : Objection pair error) : error.shownValues = [pair.1] ∨ error.shownValues = [pair.2] := by
  cases h with
  | unknown => exact Or.inl rfl
  | value h => cases h <;> exact Or.inr rfl

/-- A mapping is objected to by showing a key or a value of it. -/
theorem shownValues_of_applyPairs {pairs : List (Value × Value)} {error : SettingError}
    (h : c.applyPairs pairs = .error error) :
    ∃ pair ∈ pairs, error.shownValues = [pair.1] ∨ error.shownValues = [pair.2] := by
  obtain ⟨front, pair, back, rfl, -, hpair⟩ := applyPairs_eq_error_iff.mp h
  exact ⟨pair, by simp, hpair.shownValues⟩

/-! ### The environment -/

variable {depth : Nat}

/-- Messages can show the key and the value. -/
def IsShowable (depth : Nat) (pair : Value × Value) : Prop :=
  pair.1.showFault? (depth + 1) = none ∧ pair.2.showFault? (depth + 1) = none

theorem isShowable_put {key value : Value} {entries : List (Value × Value)}
    (h : IsShowable depth (key, value)) (hall : ∀ e ∈ entries, IsShowable depth e) :
    ∀ e ∈ Value.put key value entries, IsShowable depth e := by
  induction entries with
  | nil => simpa [Value.put] using h
  | cons e more ih =>
      obtain ⟨hfirst, hmore⟩ := List.forall_mem_cons.mp hall
      obtain ⟨k, v⟩ := e
      rw [Value.put]
      split
      · exact List.forall_mem_cons.mpr ⟨⟨hfirst.1, h.2⟩, hmore⟩
      · exact List.forall_mem_cons.mpr ⟨hfirst, ih hmore⟩

/-- A variable stands for an integer that can be written, or for a text. -/
theorem showFault?_variableValue (depth : Nat) (t : Text) :
    (variableValue t).showFault? (depth + 1) = none := by
  unfold variableValue
  cases hint : Text.toInt? t with
  | none => rfl
  | some n =>
      show (if Value.isWritableInt n then none else some Value.Fault.unwritable) = none
      rw [if_pos (Text.isWritableInt_of_toInt? hint)]

theorem isShowable_of_mem_overrides (depth : Nat) (environment : List (Text × Text)) :
    ∀ pair ∈ overrides environment, IsShowable depth pair := by
  unfold overrides
  refine List.foldlRecOn environment _ (motive := fun seen => ∀ pair ∈ seen, IsShowable depth pair)
    (by simp) ?_
  intro seen hseen v _
  split
  · exact isShowable_put ⟨rfl, showFault?_variableValue depth v.2⟩ hseen
  · exact hseen

/-! ### Answers -/

/-- There is a configuration, or what was asked for is rejected. -/
inductive Answered : Except LoadError Configuration → Prop
  | configured (c : Configuration) : Answered (.ok c)
  | rejected (error : ConfigError) : Answered (.error (.rejected error))

/-- **The environment is taken over or rejected.** -/
theorem withEnvironment_answered (c : Configuration) (depth : Nat)
    (environment : List (Text × Text)) :
    Answered (c.withEnvironment depth environment).result := by
  unfold withEnvironment
  split
  · exact Answered.configured c
  · rename_i pairs _
    show Answered ((c.applyPairs (overrides environment)).mapError (LoadError.ofSetting depth))
    cases happly : c.applyPairs (overrides environment) with
    | ok c' => exact Answered.configured c'
    | error error =>
        obtain ⟨pair, hpair, hshown⟩ := shownValues_of_applyPairs happly
        obtain ⟨hkey, hvalue⟩ := isShowable_of_mem_overrides depth environment pair hpair
        have hnone : error.showFault? depth = none := by
          unfold SettingError.showFault?
          rcases hshown with hshown | hshown
          · rw [hshown]
            simpa using hkey
          · rw [hshown]
            simpa using hvalue
        show Answered (.error (LoadError.ofSetting depth error))
        unfold LoadError.ofSetting
        rw [hnone]
        exact Answered.rejected _

/-! ### Settings files -/

variable {δ : Type} {readers : Readers δ} {tree : FileTree} {path : Option Path}
  {base : Configuration} {p : Path}

theorem readBytes_of_isFile (h : tree.isFile p = true) : ∃ bytes, tree.readBytes p = .ok bytes := by
  unfold FileTree.isFile at h
  split at h
  · rename_i bytes hfind
    refine ⟨bytes, ?_⟩
    unfold FileTree.readBytes
    rw [hfind]
    rfl
  · simp at h

/-- A file is read as the text that its bytes encode. -/
theorem readText_eq {bytes : ByteArray} (h : tree.readBytes p = .ok bytes) :
    tree.readText p = match Text.ofUtf8? bytes with
      | some text => .ok (FileTree.lineFeeds text)
      | none => .error .badEncoding := by
  unfold FileTree.readText
  rw [h]
  rfl

theorem isFile_of_chosenFile (h : chosenFile tree path = .ok (some p)) : tree.isFile p = true := by
  unfold chosenFile at h
  split at h
  · split at h
    · simp at h
    · exact List.find?_some (Except.ok.inj h)
  · split at h
    · simp at h
    · split at h
      · rename_i hfile
        obtain rfl := Option.some.inj (Except.ok.inj h)
        exact hfile
      · simp at h

/-- The reader of a format fails on the text of the settings file in no other way than by rejecting
it. -/
def ReadersReject (readers : Readers δ) (tree : FileTree) (path : Option Path) : Prop :=
  ∀ p t format fault, chosenFile tree path = .ok (some p) → tree.readText p = .ok t →
    ConfigFormat.ofSuffix? p.suffix = some format → readers.read format t = .error fault →
    fault = .malformed

/-- What is met with neither a configuration nor a rejection. -/
inductive Unanswered (readers : Readers δ) (tree : FileTree) (path : Option Path)
    (base : Configuration) : LoadError → Prop
  /-- The system does not tell what the given path leads to. -/
  | givenPath {p : Path} {error : FileError} (hpath : path = some p)
      (h : tree.lookupFailure? p = some error) :
      Unanswered readers tree path base (.unreadable p error)
  /-- Nor does it tell that of a path in the working directory. -/
  | usualPath {p : Path} {error : FileError} (hpath : path = none)
      (h : usualFailure? tree = some (p, error)) :
      Unanswered readers tree path base (.unreadable p error)
  | encoding {p : Path} {bytes : ByteArray} (hp : chosenFile tree path = .ok (some p))
      (hbytes : tree.readBytes p = .ok bytes) (h : ¬bytes.IsValidUTF8) :
      Unanswered readers tree path base (.unreadable p .badEncoding)
  /-- A value is objected to that cannot be shown. -/
  | message {p : Path} {settings : Value} {error : SettingError} {fault : Value.Fault}
      (hp : chosenFile tree path = .ok (some p))
      (hsettings : fileSettings readers tree p = .ok settings)
      (happly : base.apply settings = .error error)
      (h : error.showFault? readers.shownDepth = some fault) :
      Unanswered readers tree path base (.faulty fault)

/-- The file is chosen, or the path is rejected or unanswered. -/
theorem chosenFile_cases (readers : Readers δ) (base : Configuration) {e : LoadError}
    (h : chosenFile tree path = .error e) :
    (∃ error, e = .rejected error) ∨ Unanswered readers tree path base e := by
  unfold chosenFile at h
  split at h
  · split at h
    · rename_i p error hfailure
      obtain rfl := Except.error.inj h
      exact Or.inr (Unanswered.usualPath rfl hfailure)
    · simp at h
  · split at h
    · rename_i p error hfailure
      obtain rfl := Except.error.inj h
      exact Or.inr (Unanswered.givenPath rfl hfailure)
    · split at h
      · simp at h
      · obtain rfl := Except.error.inj h
        exact Or.inl ⟨_, rfl⟩

/-- What is at the top of a text is told just if the reader reads it. -/
theorem exists_read_of_top? {format : ConfigFormat} {t : Text} {fault : Value.Fault}
    (h : readers.top? format t = .error fault) : readers.read format t = .error fault := by
  unfold Readers.top? at h
  split at h
  · cases hread : readers.read .yaml t with
    | ok data => simp [hread, Except.map] at h
    | error e =>
        rw [hread] at h
        exact congrArg _ (Except.error.inj h)
  · split at h
    · simp at h
    · cases hread : readers.read .json t with
      | ok data => simp [hread, Except.map] at h
      | error e =>
          rw [hread] at h
          exact congrArg _ (Except.error.inj h)

/-- The text of a settings file is read, or it is rejected. -/
theorem parse_cases (hreaders : ReadersReject readers tree path)
    (hp : chosenFile tree path = .ok (some p)) {t : Text} (ht : tree.readText p = .ok t)
    {e : LoadError} (h : parse readers p t = .error e) : ∃ error, e = .rejected error := by
  unfold parse at h
  split at h
  · obtain rfl := Except.error.inj h
    exact ⟨_, rfl⟩
  · rename_i format hformat
    split at h
    · simp at h
    · obtain rfl := Except.error.inj h
      exact ⟨_, rfl⟩
    · obtain rfl := Except.error.inj h
      exact ⟨_, rfl⟩
    · rename_i fault hne htop
      exact absurd (hreaders p t format fault hp ht hformat (exists_read_of_top? htop)) hne

/-- A map is read in the one format where there is more than blanks. -/
theorem parse_json {t : Text} {data : δ} {top : List (Value × δ)}
    (hformat : ConfigFormat.ofSuffix? p.suffix = some .json) (hblank : Text.allBlank t = false)
    (hread : readers.read .json t = .ok data) (htop : readers.entries? data = some top) :
    parse readers p t = .ok top := by
  have htop? : readers.top? .json t = .ok (some top) := by
    rw [Readers.top?, if_neg (by simp [hblank]), hread, Except.map, htop]
  rw [parse, hformat]
  simp only [htop?]

/-- The settings are there, or the file is rejected or not UTF-8. -/
theorem fileSettings_cases (base : Configuration) (hreaders : ReadersReject readers tree path)
    (hp : chosenFile tree path = .ok (some p)) {e : LoadError}
    (h : fileSettings readers tree p = .error e) :
    (∃ error, e = .rejected error) ∨ Unanswered readers tree path base e := by
  obtain ⟨bytes, hbytes⟩ := readBytes_of_isFile (isFile_of_chosenFile hp)
  have htext := readText_eq hbytes
  unfold fileSettings at h
  cases hutf8 : Text.ofUtf8? bytes with
  | none =>
      rw [hutf8] at htext
      rw [htext] at h
      obtain rfl := Except.error.inj h
      exact Or.inr (Unanswered.encoding hp hbytes (Text.ofUtf8?_eq_none_iff.mp hutf8))
  | some text =>
      rw [hutf8] at htext
      rw [htext] at h
      simp only [Except.mapError, bind, Except.bind] at h
      cases hparse : parse readers p (FileTree.lineFeeds text) with
      | error e' =>
          rw [hparse] at h
          obtain rfl := Except.error.inj h
          exact Or.inl (parse_cases hreaders hp htext hparse)
      | ok top =>
          rw [hparse] at h
          simp [pure, Except.pure] at h

/-! ### Loading -/

section Steps

variable {settings : Value} (environment : List (Text × Text))

theorem result_load_of_not_chosen {e : LoadError} (base : Configuration)
    (h : chosenFile tree path = .error e) :
    (load readers tree path environment base).result = .error e := by
  rw [load, h]

theorem load_of_no_file (base : Configuration) (h : chosenFile tree path = .ok none) :
    load readers tree path environment base =
      base.withEnvironment readers.shownDepth environment := by
  rw [load, h]

theorem result_load_of_not_read {e : LoadError} (base : Configuration)
    (hp : chosenFile tree path = .ok (some p)) (h : fileSettings readers tree p = .error e) :
    (load readers tree path environment base).result = .error e := by
  rw [load, hp]
  simp only
  rw [h]

theorem result_load_of_objection {error : SettingError} (hp : chosenFile tree path = .ok (some p))
    (hsettings : fileSettings readers tree p = .ok settings)
    (h : base.apply settings = .error error) :
    (load readers tree path environment base).result =
      .error (.ofSetting readers.shownDepth error) := by
  rw [load, hp]
  simp only
  rw [hsettings]
  simp only
  rw [h]

theorem result_load_of_applied {c : Configuration} (hp : chosenFile tree path = .ok (some p))
    (hsettings : fileSettings readers tree p = .ok settings) (h : base.apply settings = .ok c) :
    (load readers tree path environment base).result =
      (c.withEnvironment readers.shownDepth environment).result := by
  rw [load, hp]
  simp only
  rw [hsettings]
  simp only
  rw [h]

end Steps

theorem ofSetting_eq {error : SettingError} {fault : Value.Fault}
    (h : error.showFault? depth = some fault) :
    LoadError.ofSetting depth error = .faulty fault := by
  rw [LoadError.ofSetting, h]

/-- Loading has an answer, or there is a reason against one. -/
theorem load_cases (hreaders : ReadersReject readers tree path) (environment : List (Text × Text))
    (base : Configuration) :
    Answered (load readers tree path environment base).result ∨
      ∃ e, Unanswered readers tree path base e := by
  cases hchosen : chosenFile tree path with
  | error e =>
      rw [result_load_of_not_chosen environment base hchosen]
      rcases chosenFile_cases readers base hchosen with ⟨error, rfl⟩ | hun
      · exact Or.inl (Answered.rejected error)
      · exact Or.inr ⟨e, hun⟩
  | ok chosen =>
      cases chosen with
      | none =>
          rw [load_of_no_file environment base hchosen]
          exact Or.inl (withEnvironment_answered base readers.shownDepth environment)
      | some p =>
          cases hsettings : fileSettings readers tree p with
          | error e =>
              rw [result_load_of_not_read environment base hchosen hsettings]
              rcases fileSettings_cases base hreaders hchosen hsettings with ⟨error, rfl⟩ | hun
              · exact Or.inl (Answered.rejected error)
              · exact Or.inr ⟨e, hun⟩
          | ok settings =>
              cases happly : base.apply settings with
              | ok c =>
                  rw [result_load_of_applied environment hchosen hsettings happly]
                  exact Or.inl (withEnvironment_answered c readers.shownDepth environment)
              | error error =>
                  rw [result_load_of_objection environment hchosen hsettings happly]
                  cases hshow : error.showFault? readers.shownDepth with
                  | none =>
                      rw [LoadError.ofSetting, hshow]
                      exact Or.inl (Answered.rejected _)
                  | some fault => exact Or.inr ⟨_, Unanswered.message hchosen hsettings happly hshow⟩

/-- A reason against an answer is what is reported. -/
theorem Unanswered.result_eq {e : LoadError} (h : Unanswered readers tree path base e)
    (environment : List (Text × Text)) :
    (load readers tree path environment base).result = .error e ∧ ∀ error, e ≠ .rejected error := by
  refine ⟨?_, by cases h <;> simp⟩
  cases h with
  | givenPath hpath hfailure =>
      refine result_load_of_not_chosen environment base ?_
      rw [hpath, chosenFile, hfailure]
  | usualPath hpath hfailure =>
      refine result_load_of_not_chosen environment base ?_
      rw [hpath, chosenFile, hfailure]
  | encoding hp hbytes hutf8 =>
      refine result_load_of_not_read environment base hp ?_
      rw [fileSettings, readText_eq hbytes, Text.ofUtf8?_eq_none_iff.mpr hutf8]
      rfl
  | message hp hsettings happly hshow =>
      rw [result_load_of_objection environment hp hsettings happly, ofSetting_eq hshow]

/-- **When loading has an answer.**  A configuration is loaded or what was asked for is rejected,
but for the reasons that are listed by Unanswered, and each of these is reported in its own way.
The environment has no part in them, nor has the configuration to start from, but for the settings
of the file that are applied to it. -/
theorem load_answered_iff (hreaders : ReadersReject readers tree path)
    (environment : List (Text × Text)) (base : Configuration) :
    (Answered (load readers tree path environment base).result ↔
      ∀ e, ¬Unanswered readers tree path base e) ∧
    ∀ e, Unanswered readers tree path base e →
      (load readers tree path environment base).result = .error e := by
  refine ⟨⟨?_, ?_⟩, fun e hun => (hun.result_eq environment).1⟩
  · intro hanswered e hun
    obtain ⟨hresult, hnot⟩ := hun.result_eq environment
    rw [hresult] at hanswered
    cases hanswered with
    | rejected error => exact hnot error rfl
  · intro hnone
    rcases load_cases hreaders environment base with hanswered | ⟨e, hun⟩
    · exact hanswered
    · exact absurd hun (hnone e)

/-! ### Two settings files -/

/-- A tree with a file in the working directory. -/
def treeOf (name : Text) (bytes : ByteArray) : FileTree := ⟨[([name], .file bytes)], []⟩

/-- The path of that file. -/
def pathOf (name : Text) : Path := ⟨1, [name]⟩

/-- Readers that read one of the formats, and reject every text in the other. -/
def jsonReaders : Readers Value where
  read format t := match format with
    | .yaml => .error .malformed
    | .json => Json.read t
  value v := v
  isVoid := Value.isVoid
  entries? := Value.entries?
  shownDepth := 989
  isVoid_iff := Value.isVoid_iff

/-- A settings file with a setting that there is not. -/
def unknownSetting : FileTree := treeOf ".structdoc.json".toList "\x7b\"a\": null\x7d".toUTF8

theorem load_answered_iff_unknownSetting :
    ReadersReject jsonReaders unknownSetting none ∧
      ∀ e, ¬Unanswered jsonReaders unknownSetting none {} e := by
  have hchosen : chosenFile unknownSetting none = .ok (some (pathOf ".structdoc.json".toList)) := rfl
  have htext : unknownSetting.readText (pathOf ".structdoc.json".toList) =
      .ok "\x7b\"a\": null\x7d".toList := by rfl
  have hread : Json.read "\x7b\"a\": null\x7d".toList = .ok (.map [(.text "a".toList, .null)]) := by
    cbv
  have hreaders : ReadersReject jsonReaders unknownSetting none := by
    intro p t format fault hp ht hformat hfault
    obtain rfl := Option.some.inj (Except.ok.inj (hchosen.symm.trans hp))
    obtain rfl := Except.ok.inj (htext.symm.trans ht)
    obtain rfl := Option.some.inj (hformat.symm.trans (show _ = some ConfigFormat.json by decide))
    cases hread.symm.trans hfault
  have hparse : parse jsonReaders (pathOf ".structdoc.json".toList) "\x7b\"a\": null\x7d".toList =
      .ok [(.text "a".toList, .null)] := parse_json (by decide) (by decide) hread rfl
  have hsettings : fileSettings jsonReaders unknownSetting (pathOf ".structdoc.json".toList) =
      .ok (.map [(.text "a".toList, .null)]) := by
    rw [fileSettings, htext]
    simp only [Except.mapError, bind, Except.bind, hparse]
    rfl
  have hunknown : Configuration.apply {} (.map [(.text "a".toList, .null)]) =
      .error (.unknownSetting (.text "a".toList)) := rfl
  have hobjection := result_load_of_objection [] hchosen hsettings hunknown
  refine ⟨hreaders, (load_answered_iff hreaders [] {}).1.mp ?_⟩
  rw [hobjection]
  exact Answered.rejected _

/-- A settings file that is not UTF-8. -/
def notUtf8 : FileTree := treeOf ".structdoc.yml".toList (.mk #[0xff])

/-- It is not rejected, though no reader of a format is to blame. -/
theorem not_answered_notUtf8 :
    ReadersReject jsonReaders notUtf8 none ∧
      (load jsonReaders notUtf8 none [] {}).result =
        .error (.unreadable (pathOf ".structdoc.yml".toList) .badEncoding) ∧
      ¬Answered (load jsonReaders notUtf8 none [] {}).result := by
  have hchosen : chosenFile notUtf8 none = .ok (some (pathOf ".structdoc.yml".toList)) := rfl
  have hun : Unanswered jsonReaders notUtf8 none {}
      (.unreadable (pathOf ".structdoc.yml".toList) .badEncoding) :=
    Unanswered.encoding hchosen rfl (by decide)
  obtain ⟨hresult, -⟩ := hun.result_eq []
  refine ⟨?_, hresult, ?_⟩
  · intro p t format fault hp ht
    obtain rfl := Option.some.inj (Except.ok.inj (hchosen.symm.trans hp))
    rw [readText_eq rfl, Text.ofUtf8?_eq_none_iff.mpr (by decide)] at ht
    simp at ht
  · rw [hresult]
    intro hanswered
    cases hanswered

end Configuration

end DocLint
