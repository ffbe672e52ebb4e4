import Replatform.Proofs.Schema.Wording
import Replatform.Proofs.Store.RoundTrip
import Replatform.Proofs.Text.Utf8

/-! # How reading a plan ends

Reading gives the plan, or it fails.  The store has errors of its own: the file is missing, the
operating system gives no access to it, or it holds no valid plan.  Other errors come up where a
file is not looked at but used: its path cannot be handed over, its bytes are no text, a scalar has
no value of its kind, or a wrong kind cannot be quoted.  Which of these is the outcome is a matter
of the path, of what stands where it leads, and of the loader.
-/
namespace Replatform
namespace Store

variable {loader : Yaml.Loader}

/-- The errors of the store. -/
inductive ErrorKind where
  /-- There is no plan file. -/
  | missing
  /-- The operating system gives no access. -/
  | access
  /-- The file holds no valid plan. -/
  | format
  deriving DecidableEq, Repr

/-- The error of the store that a fault is raised as.  Other faults are raised as what they are. -/
def Fault.kind? : Fault → Option ErrorKind
  | .missing _ => some .missing
  | .writing .. => some .access
  | .reading .. => some .access
  | .notYaml _ => some .format
  | .notMapping _ => some .format
  | .schema .. => some .format
  | .invalid _ => none
  | .unusablePath _ => none
  | .linkLoop => none
  | .encoding _ => none
  | .scalar _ => none
  | .wording _ => none

/-- The bytes are those of a YAML text with the value. -/
def HasValue (loader : Yaml.Loader) (content : List UInt8) (v : Value) : Prop :=
  ∃ cs, content = Utf8.encode cs ∧ Yaml.read loader (Text.plainLines cs) = .ok v

/-- The bytes are those of a YAML mapping that matches the schema. -/
def HoldsPlan (loader : Yaml.Loader) (content : List UInt8) : Prop :=
  ∃ es d, HasValue loader content (.map es) ∧ Document.readEntries es = .ok d

/-- Why the bytes of a file cannot even be reported on as a plan file. -/
inductive Unreportable (loader : Yaml.Loader) (content : List UInt8) : Prop where
  /-- They are not those of a text. -/
  | noText (h : ∀ cs, content ≠ Utf8.encode cs)
  /-- The text is well-formed YAML in vain: a scalar has no value of its kind, or the collections
  stand too deep inside one another. -/
  | noValue (cs : List Char) (fault : Yaml.Fault) (h : content = Utf8.encode cs)
      (hread : Yaml.read loader (Text.plainLines cs) = .error fault) (hfault : fault ≠ .malformed)
  /-- The kind is a text with a surrogate, which no message can quote. -/
  | brokenKind (es : Schema.Entries) (kind : String) (h : HasValue loader content (.map es))
      (hkind : Value.lookupText "kind" es = some (.text kind))
      (hbroken : Text.hasSurrogate kind.toList = true)

theorem HasValue.eq {content : List UInt8} {v w : Value} (hv : HasValue loader content v)
    (hw : HasValue loader content w) : v = w := by
  obtain ⟨cs, rfl, hcs⟩ := hv
  obtain ⟨ds, hcontent, hds⟩ := hw
  rw [Utf8.encode_injective hcontent, hds] at hcs
  exact (Except.ok.inj hcs).symm

/-! ### What a file holds -/

theorem readEntries_of_encode (path : String) (cs : List Char) :
    readEntries loader path (Utf8.encode cs) =
      match Yaml.read loader (Text.plainLines cs) with
      | .error .malformed => .error (.notYaml path)
      | .error fault => .error (.scalar fault)
      | .ok (.map es) => .ok es
      | .ok _ => .error (.notMapping path) := by
  unfold readEntries
  cases h : Utf8.decode (Utf8.encode cs) with
  | error fault =>
    rw [Utf8.decode_encode] at h
    cases h
  | ok ds =>
    rw [Utf8.decode_encode] at h
    cases h
    rfl

/-- A mapping is found exactly if the bytes are those of one. -/
theorem readEntries_eq_ok {path : String} {content : List UInt8} {es : Schema.Entries} :
    readEntries loader path content = .ok es ↔ HasValue loader content (.map es) := by
  constructor
  · intro h
    unfold readEntries at h
    cases hcs : Utf8.decode content with
    | error fault =>
      rw [hcs] at h
      cases h
    | ok cs =>
      simp only [hcs] at h
      refine ⟨cs, Utf8.decode_eq_ok.mp hcs, ?_⟩
      split at h
      · cases h
      · cases h
      · rename_i hread
        rw [hread, ← Except.ok.inj h]
      · cases h
  · rintro ⟨cs, rfl, hread⟩
    rw [readEntries_of_encode, hread]

/-- The bytes are those of a YAML mapping that the schema reads as the document. -/
def HoldsDocument (loader : Yaml.Loader) (content : List UInt8) (d : Document) : Prop :=
  ∃ es, HasValue loader content (.map es) ∧ Document.readEntries es = .ok d

/-- A document is read exactly if the bytes hold it, whatever path has led to them. -/
theorem readDocument_eq_ok {path : String} {content : List UInt8} {d : Document} :
    readDocument loader path content = .ok d ↔ HoldsDocument loader content d := by
  constructor
  · intro h
    cases hentries : readEntries loader path content with
    | error fault =>
      simp only [readDocument, hentries, bind, Except.bind] at h
      cases h
    | ok es =>
      simp only [readDocument, hentries, bind, Except.bind] at h
      refine ⟨es, readEntries_eq_ok.mp hentries, ?_⟩
      split at h
      · rename_i d' hd
        rw [hd, Except.ok.inj h]
      · split at h <;> cases h
  · rintro ⟨es, hes, hd⟩
    simp only [readDocument, readEntries_eq_ok.mpr hes, bind, Except.bind, hd]
    rfl

/-- If there is none, the error is the store's exactly if the bytes are those of a text whose
scalars have values. -/
theorem kind?_of_readEntries {path : String} {content : List UInt8} {fault : Fault}
    (h : readEntries loader path content = .error fault) :
    (fault.kind? = some .format ∧ ¬Unreportable loader content) ∨
      (fault.kind? = none ∧ Unreportable loader content) := by
  have hnone : ∀ es, ¬HasValue loader content (.map es) := fun es hes => by
    rw [readEntries_eq_ok.mpr hes] at h
    cases h
  cases hcs : Utf8.decode content with
  | error cause =>
    rw [readEntries, hcs] at h
    obtain rfl := Except.error.inj h
    refine .inr ⟨rfl, .noText fun cs hcontent => ?_⟩
    rw [Utf8.decode_eq_ok.mpr hcontent] at hcs
    cases hcs
  | ok cs =>
    obtain rfl := Utf8.decode_eq_ok.mp hcs
    -- the bytes are those of no other text, so only its value counts
    have hreportable : (∀ cause, Yaml.read loader (Text.plainLines cs) = .error cause → cause = .malformed) →
        ¬Unreportable loader (Utf8.encode cs) := by
      intro hread
      rintro (hno | ⟨ds, cause, hds, hcause, hne⟩ | ⟨es, kind, hes, -, -⟩)
      · exact hno cs rfl
      · rw [← Utf8.encode_injective hds] at hcause
        exact hne (hread cause hcause)
      · exact hnone es hes
    rw [readEntries_of_encode] at h
    split at h
    · rename_i hread
      obtain rfl := Except.error.inj h
      exact .inl ⟨rfl, hreportable fun cause hcause => (Except.error.inj (hread ▸ hcause)).symm⟩
    · rename_i cause hne hread
      obtain rfl := Except.error.inj h
      exact .inr ⟨rfl, .noValue cs cause rfl hread hne⟩
    · cases h
    · rename_i hread
      obtain rfl := Except.error.inj h
      refine .inl ⟨rfl, hreportable fun cause hcause => ?_⟩
      rw [hread] at hcause
      cases hcause

/-- A mapping cannot be reported on exactly if its kind is a text with a surrogate. -/
theorem unreportable_iff_of_mapping {content : List UInt8} {es : Schema.Entries}
    (hes : HasValue loader content (.map es)) :
    Unreportable loader content ↔ (Document.readEntries es).obstacle?.isSome = true := by
  rw [Document.isSome_obstacle?_readEntries]
  refine ⟨?_, fun ⟨kind, hkind, hbroken⟩ => .brokenKind es kind hes hkind hbroken⟩
  rintro (hno | ⟨cs, cause, rfl, hcause, -⟩ | ⟨es', kind, hes', hkind, hbroken⟩)
  · obtain ⟨cs, hcontent, -⟩ := hes
    exact absurd hcontent (hno cs)
  · obtain ⟨ds, hcontent, hds⟩ := hes
    rw [Utf8.encode_injective hcontent, hds] at hcause
    cases hcause
  · obtain rfl : es' = es := Value.map.inj (hes'.eq hes)
    exact ⟨kind, hkind, hbroken⟩

/-- A document is read exactly from a mapping that matches the schema; otherwise the error is the
store's unless the bytes cannot be reported on. -/
theorem readDocument_cases (path : String) (content : List UInt8) :
    (HoldsPlan loader content ∧ ¬Unreportable loader content ∧ ∃ d, readDocument loader path content = .ok d) ∨
      (¬HoldsPlan loader content ∧ ∃ fault, readDocument loader path content = .error fault ∧
        ((fault.kind? = some .format ∧ ¬Unreportable loader content) ∨
          (fault.kind? = none ∧ Unreportable loader content))) := by
  cases hentries : readEntries loader path content with
  | error fault =>
    refine .inr ⟨?_, fault, ?_, kind?_of_readEntries hentries⟩
    · rintro ⟨es, d, hes, -⟩
      rw [readEntries_eq_ok.mpr hes] at hentries
      cases hentries
    · simp only [readDocument, hentries, bind, Except.bind]
  | ok es =>
    have hes := readEntries_eq_ok.mp hentries
    have hunreportable := unreportable_iff_of_mapping hes
    cases hd : Document.readEntries es with
    | ok d =>
      rw [hd] at hunreportable
      refine .inl ⟨⟨es, d, hes, hd⟩, fun h => Bool.false_ne_true (hunreportable.mp h), d, ?_⟩
      simp only [readDocument, hentries, bind, Except.bind, hd]
      rfl
    | faulty issues =>
      rw [hd, Schema.Checked.obstacle?] at hunreportable
      refine .inr ⟨?_, ?_⟩
      · rintro ⟨es', d, hes', hd'⟩
        obtain rfl : es' = es := Value.map.inj (hes'.eq hes)
        rw [hd'] at hd
        cases hd
      · simp only [readDocument, hentries, bind, Except.bind, hd]
        cases hobstacle : issues.findSome? Schema.Issue.obstacle? with
        | some obstacle => exact ⟨_, rfl, .inr ⟨rfl, hunreportable.mpr (by rw [hobstacle]; rfl)⟩⟩
        | none =>
          refine ⟨_, rfl, .inl ⟨rfl, fun h => Bool.false_ne_true ?_⟩⟩
          rw [← hunreportable.mp h, hobstacle]
          rfl

/-! ### Runs -/

theorem run_read_eq (t : FileTree) (cwd path : Path) (j : Log.Journal) :
    ((read loader t cwd path).run.run j).1 = load loader t cwd path := by
  unfold read
  cases load loader t cwd path with
  | ok p => rfl
  | error fault => cases fault <;> rfl

/-- The run ends with an error of this kind, or with another one if there is no kind. -/
def Fails (outcome : Except Fault Plan) (kind? : Option ErrorKind) : Prop :=
  ∃ fault, outcome = .error fault ∧ fault.kind? = kind?

/-- The directory of a file whose content can be read is found. -/
theorem exists_realPath_of_contentAt {t : FileTree} {cwd path : Path} {content : List UInt8}
    (ht : t.Grounded) (h : t.contentAt cwd path = .ok content) :
    ∃ base, t.realPath cwd path.parent = .ok base := by
  obtain ⟨here, access, hplace, -⟩ := FileTree.contentAt_eq_ok.mp h
  exact FileTree.exists_realPath_parent ht hplace

/-- **How reading ends.**  It gives a plan exactly if the path leads to a file with a YAML mapping
that matches the schema.  The file is said to be missing exactly if nothing is found where the
path leads, and access fails exactly if the operating system refuses it for another reason.  If
there is a file, the error is that it holds no valid plan, unless its content cannot be reported
on; exactly then, and for a path that cannot be handed over, another error comes up. -/
theorem read_ends {t : FileTree} (ht : t.Grounded) (loader : Yaml.Loader) (cwd path : Path)
    (j : Log.Journal) :
    let outcome := ((read loader t cwd path).run.run j).1
    ((∃ p, outcome = .ok p) ↔
        ∃ content, t.contentAt cwd path = .ok content ∧ HoldsPlan loader content) ∧
      (Fails outcome (some .missing) ↔ t.contentAt cwd path = .error .notFound) ∧
      (Fails outcome (some .access) ↔ ∃ refusal, t.contentAt cwd path = .error refusal ∧
        refusal ≠ .notFound ∧ ∀ why, refusal ≠ .unusable why) ∧
      (Fails outcome (some .format) ↔ ∃ content, t.contentAt cwd path = .ok content ∧
        ¬HoldsPlan loader content ∧ ¬Unreportable loader content) ∧
      (Fails outcome none ↔
        (∃ content, t.contentAt cwd path = .ok content ∧ Unreportable loader content) ∨
          ∃ why, FileTree.accept path = .error (.unusable why)) := by
  dsimp only
  rw [run_read_eq]
  simp only [← @FileTree.contentAt_eq_unusable t cwd path]
  cases hcontent : t.contentAt cwd path with
  | error refusal =>
    rw [load, hcontent]
    cases refusal with
    | notFound => simp [Fails, Fault.kind?]
    | unusable why => simp [Fails, Fault.kind?, refusal]
    | _ => simp [Fails, Fault.kind?, refusal]
  | ok content =>
    obtain ⟨base, hbase⟩ := exists_realPath_of_contentAt ht hcontent
    rw [load_of_content hcontent hbase]
    obtain ⟨hholds, hreportable, d, hd⟩ | ⟨hno, fault, hfault, ⟨hkind, hun⟩ | ⟨hkind, hun⟩⟩ :=
      @readDocument_cases loader path.text content
    · simp [hd, Except.map, Fails, hholds, hreportable]
    · simp [hfault, Except.map, Fails, hno, hun, hkind]
    · simp [hfault, Except.map, Fails, hno, hun, hkind]

/-- A path at which nothing stands, and the path of a directory. -/
theorem read_ends_beside_directory :
    let t := FileTree.empty.set ["plans"] (.directory .all)
    let outcome (path : String) :=
      ((read .standard t ⟨.slash, []⟩ (.parse path)).run.run .empty).1
    Fails (outcome "plan.yaml") (some .missing) ∧ Fails (outcome "plans") (some .access) := by
  intro t outcome
  have ht : t.Grounded := FileTree.grounded_directory
  obtain ⟨-, hmissing, -⟩ := read_ends ht .standard ⟨.slash, []⟩ (.parse "plan.yaml") .empty
  obtain ⟨-, -, haccess, -⟩ := read_ends ht .standard ⟨.slash, []⟩ (.parse "plans") .empty
  exact ⟨hmissing.mpr (by rfl),
    haccess.mpr ⟨.isADirectory, by rfl, FileTree.Refusal.noConfusion,
      fun _ => FileTree.Refusal.noConfusion⟩⟩

/-- The errors of the store are not all that reading can end with: a file may be no text. -/
theorem read_fails_otherwise :
    ¬∀ (t : FileTree) (cwd path : Path) (j : Log.Journal), t.Grounded → t.IsWorkingDirectory cwd →
      (∃ p, ((read .standard t cwd path).run.run j).1 = .ok p) ∨
        ∃ kind, Fails ((read .standard t cwd path).run.run j).1 (some kind) := by
  intro h
  let t := FileTree.empty.set ["plan.yaml"] (.file .write [0xFF])
  have ht : t.Grounded := FileTree.grounded_empty.set
    (FileTree.not_directoryAt_of_none rfl) (FileTree.directoryAt_root _) _
  have hrun : ((read .standard t ⟨.slash, []⟩ (.parse "plan.yaml")).run.run .empty).1 =
      .error (.encoding ⟨0, 1, 0xFF, .invalidStart⟩) := by rfl
  obtain ⟨p, hp⟩ | ⟨kind, fault, hfault, hkind⟩ :=
    h t ⟨.slash, []⟩ (.parse "plan.yaml") .empty ht (FileTree.isWorkingDirectory_root t)
  · rw [hrun] at hp
    cases hp
  · rw [hrun] at hfault
    rw [← Except.error.inj hfault] at hkind
    cases hkind

end Store
end Replatform
