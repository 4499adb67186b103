import NeuralSoc.Artifacts.Publishing
import NeuralSoc.Base.Runs

/-! # What a loader loads. -/

namespace NeuralSoc.Artifacts

open Shell
open Dga (stripPoints isSpacePoint)

variable {dg : Digest} {maxModelSize : ℕ} {program : ℕ → Program} {w w' : World} {i : ℕ}

/-! ## Steps of a writer -/

/-- What a step of a writer does, when it does something. -/
inductive Takes (dg : Digest) (program : Program) (w : World) (i : ℕ) : Move → World → Prop
  | begin (h : w.stage i = .ready) : Takes dg program w i .begin
      ({ w with disk := w.disk.openModel program.place }.enter i (.saving (w.disk.modelInode program.place)))
  | flush {inode : ℕ} {bytes : Text} (h : w.stage i = .saving inode) : Takes dg program w i (.flush bytes)
      { w with disk := { w.disk with models := Function.update w.disk.models inode bytes } }
  | finish {inode : ℕ} {artifact : Text} (h : w.stage i = .saving inode) : Takes dg program w i (.finish artifact)
      ({ w with
          disk := { w.disk with models := Function.update w.disk.models inode artifact }
          artifacts := w.artifacts ++ [artifact] }.enter i .saved)
  | digest {inode : ℕ} (h : w.stage i = .saved) (hat : w.disk.modelAt program.place = some inode) :
      Takes dg program w i .digest
        ({ w with read := w.read ++ [w.disk.models inode] }.enter i (.digested (dg.sha256 (w.disk.models inode))))
  | unsaved (h : w.stage i = .saved) (hat : w.disk.modelAt program.place = none) :
      Takes dg program w i .digest (w.enter i .ready)
  | openSidecar {fileHash : Text} (h : w.stage i = .digested fileHash) : Takes dg program w i .openSidecar
      ({ w with disk := w.disk.openSidecar program.place }.enter i
        (.signing (w.disk.sidecarInode program.place) fileHash))
  | sign {inode : ℕ} {fileHash : Text} (h : w.stage i = .signing inode fileHash) : Takes dg program w i .sign
      ({ w with disk := w.disk.writeSidecar inode (fileHash ++ program.ending) }.enter i .ready)
  | replaceModel {inode : ℕ} (h : w.stage i = .ready) (hprogram : program = .trainer)
      (hat : w.disk.modelAt .temp = some inode) : Takes dg program w i .replaceModel
        ({ w with disk := w.disk.replaceModel, inUse := w.disk.models inode :: w.inUse }.enter i .deploying)
  | replaceSidecar {inode : ℕ} (h : w.stage i = .deploying) (hat : w.disk.sidecarAt .temp = some inode) :
      Takes dg program w i .replaceSidecar ({ w with disk := w.disk.replaceSidecar }.enter i .ready)
  | unsigned (h : w.stage i = .deploying) (hat : w.disk.sidecarAt .temp = none) :
      Takes dg program w i .replaceSidecar (w.enter i .ready)
  | fail : Takes dg program w i .fail (w.enter i .ready)

theorem move_cases (dg : Digest) (program : Program) (w : World) (i : ℕ) (m : Move) :
    w.move dg program i m = w ∨ Takes dg program w i m (w.move dg program i m) := by
  cases m with
  | begin =>
      cases h : w.stage i with
      | ready => exact .inr (by simp only [World.move, h]; exact .begin h)
      | _ => exact .inl (by simp only [World.move, h])
  | flush bytes =>
      cases h : w.stage i with
      | saving inode => exact .inr (by simp only [World.move, h]; exact .flush h)
      | _ => exact .inl (by simp only [World.move, h])
  | finish artifact =>
      cases h : w.stage i with
      | saving inode => exact .inr (by simp only [World.move, h]; exact .finish h)
      | _ => exact .inl (by simp only [World.move, h])
  | digest =>
      cases h : w.stage i with
      | saved =>
          cases hat : w.disk.modelAt program.place with
          | some inode => exact .inr (by simp only [World.move, h, hat]; exact .digest h hat)
          | none => exact .inr (by simp only [World.move, h, hat]; exact .unsaved h hat)
      | _ => exact .inl (by simp only [World.move, h])
  | openSidecar =>
      cases h : w.stage i with
      | digested fileHash => exact .inr (by simp only [World.move, h]; exact .openSidecar h)
      | _ => exact .inl (by simp only [World.move, h])
  | sign =>
      cases h : w.stage i with
      | signing inode fileHash => exact .inr (by simp only [World.move, h]; exact .sign h)
      | _ => exact .inl (by simp only [World.move, h])
  | replaceModel =>
      cases h : w.stage i with
      | ready =>
          by_cases hready : (program = .trainer && (w.disk.modelAt .temp).isSome) = true
          · simp only [Bool.and_eq_true, decide_eq_true_eq] at hready
            obtain ⟨inode, hat⟩ := Option.isSome_iff_exists.mp hready.2
            refine .inr ?_
            simp only [World.move, h, hready.1, hat]
            exact .replaceModel h rfl hat
          · exact .inl (by simp only [World.move, h]; rw [if_neg hready])
      | _ => exact .inl (by simp only [World.move, h])
  | replaceSidecar =>
      cases h : w.stage i with
      | deploying =>
          cases hat : w.disk.sidecarAt .temp with
          | some inode => exact .inr (by simp only [World.move, h, hat]; exact .replaceSidecar h hat)
          | none => exact .inr (by simp only [World.move, h, hat]; exact .unsigned h hat)
      | _ => exact .inl (by simp only [World.move, h])
  | fail => exact .inr .fail

/-! ## Digests -/

/-- The file of a digest says which model it is of. -/
def Signs (dg : Digest) (text model : Text) : Prop := text = dg.sha256 model ∨ text = dg.sha256 model ++ [10]

theorem stripPoints_signs {text model : Text} (h : Signs dg text model) :
    stripPoints (text.take 1024) = dg.sha256 model := by
  have hspace : ∀ c ∈ dg.sha256 model, isSpacePoint c = false := by
    intro c hc
    have hdigits : ∀ n < 103, (48 ≤ n ∧ n ≤ 57 ∨ 97 ≤ n ∧ n ≤ 102) → isSpacePoint n = false := by decide +kernel
    have hhex := dg.hex model c hc
    exact hdigits c (by omega) hhex
  have htrim : ∀ text : Text, (∀ c ∈ text, isSpacePoint c = false) → text.dropWhile isSpacePoint = text := by
    intro text h
    cases text with
    | nil => rfl
    | cons c text => rw [List.dropWhile_cons_of_neg (by simp [h c List.mem_cons_self])]
  have hlength := dg.length_eq model
  have hreverse : ∀ c ∈ (dg.sha256 model).reverse, isSpacePoint c = false := fun c hc =>
    hspace c (List.mem_reverse.mp hc)
  rcases h with rfl | rfl
  · rw [List.take_of_length_le (by omega), stripPoints, htrim _ hspace, htrim _ hreverse, List.reverse_reverse]
  · have hne : dg.sha256 model ≠ [] := fun hnil => by simp [hnil] at hlength
    obtain ⟨c, rest, hcons⟩ := List.exists_cons_of_ne_nil hne
    have hfront : (dg.sha256 model ++ [10]).dropWhile isSpacePoint = dg.sha256 model ++ [10] := by
      rw [hcons, List.cons_append, List.dropWhile_cons_of_neg]
      simp [hspace c (hcons ▸ List.mem_cons_self)]
    have hnewline : isSpacePoint 10 = true := by decide +kernel
    rw [List.take_of_length_le (by simp; omega), stripPoints, hfront, List.reverse_append, List.reverse_singleton,
      List.singleton_append, List.dropWhile_cons_of_pos hnewline, htrim _ hreverse, List.reverse_reverse]

/-- The file of a digest is empty or says which of the models it is of. -/
def Recorded (dg : Digest) (read : List Text) (text : Text) : Prop := text = [] ∨ ∃ b ∈ read, Signs dg text b

theorem Recorded.mono {read read' : List Text} {text : Text} (h : Recorded dg read text) (hsub : read ⊆ read') :
    Recorded dg read' text := h.imp_right fun ⟨b, hb, hsigns⟩ => ⟨b, hsub hb, hsigns⟩

theorem recorded_write {read : List Text} {text : Text} (h : Recorded dg read text) {b : Text} (hb : b ∈ read)
    (program : Program) : Recorded dg read
      (dg.sha256 b ++ program.ending ++ text.drop (dg.sha256 b ++ program.ending).length) := by
  have hlength := dg.length_eq b
  have hrest : text.drop 64 = [] ∨ text.drop 64 = [10] := by
    rcases h with rfl | ⟨c, -, rfl | rfl⟩
    · exact .inl rfl
    · exact .inl (List.drop_eq_nil_of_le (dg.length_eq c).le)
    · refine .inr ?_
      rw [List.drop_append_of_le_length (dg.length_eq c).ge, List.drop_eq_nil_of_le (dg.length_eq c).le]
      rfl
  refine .inr ⟨b, hb, ?_⟩
  cases program with
  | trainer =>
      rw [Program.ending, List.append_nil, hlength]
      rcases hrest with hnil | hline
      · exact .inl (by rw [hnil, List.append_nil])
      · exact .inr (by rw [hline])
  | saver =>
      have hnil : text.drop 65 = [] := by
        rw [← List.drop_drop (i := 1) (j := 64)]
        rcases hrest with h | h <;> simp [h]
      rw [Program.ending, List.length_append, hlength]
      exact .inr (by rw [show 64 + [10].length = 65 from rfl, hnil, List.append_nil])

/-! ## Any number of writers -/

/-- The digest that a writer holds. -/
def Stage.fileHash : Stage → Option Text
  | .digested fileHash | .signing _ fileHash => some fileHash
  | _ => none

/-- The digest that the loader compares with. -/
def Loader.expectedSha : Loader → Option Text
  | .expecting expectedSha | .reading expectedSha _ => some expectedSha
  | _ => none

/-- Every digest is that of a model that was read back. -/
structure Traced (dg : Digest) (w : World) : Prop where
  sidecars : ∀ inode, Recorded dg w.read (w.disk.sidecars inode)
  held : ∀ i fileHash, (w.stage i).fileHash = some fileHash → ∃ b ∈ w.read, fileHash = dg.sha256 b
  expected : ∀ expectedSha, w.loader.expectedSha = some expectedSha →
    expectedSha = [] ∨ ∃ b ∈ w.read, expectedSha = dg.sha256 b
  loaded : ∀ bytes sha, w.loader = .loaded bytes sha → sha = dg.sha256 bytes ∧ ∃ b ∈ w.read, dg.sha256 b = sha

/-- The files of the digests, what the loader does and what was read are as they were. -/
theorem Traced.enter (h : Traced dg w) {disk : Disk} (hdisk : disk.sidecars = w.disk.sidecars)
    (artifacts inUse : List Text) {stage : Stage} (hstage : stage.fileHash = none) :
    Traced dg ({ w with disk, artifacts, inUse }.enter i stage) where
  sidecars := hdisk ▸ h.sidecars
  held j fileHash hj := by
    by_cases hji : j = i
    · subst hji
      simp only [World.enter, Function.update_self, hstage] at hj
      cases hj
    · simp only [World.enter, Function.update_of_ne hji] at hj
      exact h.held j fileHash hj
  expected := h.expected
  loaded := h.loaded

theorem traced_move (h : Traced dg w) (program : Program) (i : ℕ) (m : Move) : Traced dg (w.move dg program i m) := by
  rcases move_cases dg program w i m with hsame | htakes
  · rw [hsame]
    exact h
  · generalize w.move dg program i m = w' at htakes ⊢
    cases htakes with
    | begin => exact h.enter (by rfl) _ _ (by rfl)
    | flush => exact ⟨h.sidecars, h.held, h.expected, h.loaded⟩
    | finish => exact h.enter (by rfl) _ _ (by rfl)
    | @digest inode _ _ =>
        have hsub : w.read ⊆ w.read ++ [w.disk.models inode] := List.subset_append_left _ _
        refine ⟨fun j => (h.sidecars j).mono hsub, fun j fileHash hj => ?_, fun sha hsha => ?_, fun bytes sha hl => ?_⟩
        · by_cases hji : j = i
          · subst hji
            simp only [World.enter, Function.update_self, Stage.fileHash, Option.some.injEq] at hj
            exact ⟨_, List.mem_append_right _ (List.mem_singleton_self _), hj.symm⟩
          · simp only [World.enter, Function.update_of_ne hji] at hj
            obtain ⟨b, hb, heq⟩ := h.held j fileHash hj
            exact ⟨b, hsub hb, heq⟩
        · exact (h.expected sha hsha).imp_right fun ⟨b, hb, heq⟩ => ⟨b, hsub hb, heq⟩
        · obtain ⟨heq, b, hb, hsha⟩ := h.loaded bytes sha hl
          exact ⟨heq, b, hsub hb, hsha⟩
    | unsaved => exact h.enter (by rfl) _ _ (by rfl)
    | openSidecar hstage =>
        refine ⟨fun j => ?_, fun j fileHash hj => ?_, h.expected, h.loaded⟩
        · change Recorded dg w.read (Function.update w.disk.sidecars _ [] j)
          by_cases hji : j = w.disk.sidecarInode program.place
          · rw [hji, Function.update_self]
            exact .inl rfl
          · rw [Function.update_of_ne hji]
            exact h.sidecars j
        · by_cases hji : j = i
          · subst hji
            simp only [World.enter, Function.update_self, Stage.fileHash] at hj
            exact h.held j fileHash (by rw [hstage]; exact hj)
          · simp only [World.enter, Function.update_of_ne hji] at hj
            exact h.held j fileHash hj
    | @sign inode fileHash hstage =>
        obtain ⟨b, hb, rfl⟩ := h.held i fileHash (by rw [hstage]; rfl)
        refine ⟨fun j => ?_, fun j fileHash hj => ?_, h.expected, h.loaded⟩
        · change Recorded dg w.read (Function.update w.disk.sidecars inode _ j)
          by_cases hji : j = inode
          · rw [hji, Function.update_self]
            exact recorded_write (h.sidecars inode) hb program
          · rw [Function.update_of_ne hji]
            exact h.sidecars j
        · by_cases hji : j = i
          · subst hji
            simp only [World.enter, Function.update_self, Stage.fileHash] at hj
            cases hj
          · simp only [World.enter, Function.update_of_ne hji] at hj
            exact h.held j fileHash hj
    | replaceModel => exact h.enter (by rfl) _ _ (by rfl)
    | replaceSidecar => exact h.enter (by rfl) _ _ (by rfl)
    | unsigned => exact h.enter (by rfl) _ _ (by rfl)
    | fail => exact h.enter (by rfl) _ _ (by rfl)

theorem expectedSha_advance {d : Disk} {l : Loader} {sha : Text}
    (h : (l.advance dg maxModelSize d).expectedSha = some sha) :
    l.expectedSha = some sha ∨ ∃ inode, sha = stripPoints ((d.sidecars inode).take 1024) := by
  cases l with
  | fresh =>
      cases hat : d.modelAt .live with
      | none => simp [Loader.advance, hat, Loader.expectedSha] at h
      | some inode =>
          simp only [Loader.advance, hat] at h
          split at h <;> cases h
  | measured => cases hat : d.sidecarAt .live <;> simp [Loader.advance, hat, Loader.expectedSha] at h
  | opened inode =>
      cases h
      exact .inr ⟨inode, rfl⟩
  | expecting expectedSha =>
      cases hat : d.modelAt .live with
      | none => simp [Loader.advance, hat, Loader.expectedSha] at h
      | some inode =>
          simp only [Loader.advance, hat] at h
          exact .inl h
  | reading expectedSha inode =>
      simp only [Loader.advance] at h
      split at h <;> cases h
  | loaded _ _ => cases h
  | failed => cases h

theorem loaded_of_advance {d : Disk} {l : Loader} {bytes sha : Text}
    (h : l.advance dg maxModelSize d = .loaded bytes sha) :
    l = .loaded bytes sha ∨ l.expectedSha = some sha ∧ sha = dg.sha256 bytes := by
  cases l with
  | fresh =>
      cases hat : d.modelAt .live with
      | none => simp [Loader.advance, hat] at h
      | some inode =>
          simp only [Loader.advance, hat] at h
          split at h <;> cases h
  | measured => cases hat : d.sidecarAt .live <;> simp [Loader.advance, hat] at h
  | opened inode => cases h
  | expecting expectedSha => cases hat : d.modelAt .live <;> simp [Loader.advance, hat] at h
  | reading expectedSha inode =>
      simp only [Loader.advance] at h
      split at h
      · next heq =>
          cases h
          exact .inr ⟨congrArg some heq.symm, rfl⟩
      · cases h
  | loaded _ _ => exact .inl h
  | failed => cases h

theorem traced_load (h : Traced dg w) :
    Traced dg { w with loader := w.loader.advance dg maxModelSize w.disk } where
  sidecars := h.sidecars
  held := h.held
  expected sha hsha := by
    rcases expectedSha_advance hsha with hsha | ⟨inode, rfl⟩
    · exact h.expected sha hsha
    · rcases h.sidecars inode with hempty | ⟨b, hb, hsigns⟩
      · exact .inl (by rw [hempty]; rfl)
      · exact .inr ⟨b, hb, stripPoints_signs hsigns⟩
  loaded bytes sha hloaded := by
    rcases loaded_of_advance hloaded with hloaded | ⟨hsha, rfl⟩
    · exact h.loaded bytes sha hloaded
    · rcases h.expected _ hsha with hempty | ⟨b, hb, heq⟩
      · have hlength := dg.length_eq bytes
        rw [hempty] at hlength
        cases hlength
      · exact ⟨rfl, b, hb, heq.symm⟩

theorem traced_step (h : Traced dg w) (e : Event) : Traced dg (step dg maxModelSize program w e) := by
  cases e with
  | write i m => exact traced_move h (program i) i m
  | load => exact traced_load h

theorem traced_deployed (dg : Digest) (artifact : Text) : Traced dg (deployed dg artifact) where
  sidecars _ := .inr ⟨artifact, List.mem_singleton_self _, .inr rfl⟩
  held _ _ h := by cases h
  expected _ h := by cases h
  loaded _ _ h := by cases h

/-! ## One trainer -/

/-- The files that were read back for a digest have been saved to their end. -/
structure Complete (w : World) : Prop where
  read : ∀ b ∈ w.read, b ∈ w.artifacts
  saving : ∀ inode, w.stage 0 = .saving inode → w.disk.modelAt .temp = some inode
  saved : w.stage 0 = .saved → ∃ inode, w.disk.modelAt .temp = some inode ∧ w.disk.models inode ∈ w.artifacts

theorem complete_move (h : Complete w) (m : Move) : Complete (w.move dg .trainer 0 m) := by
  rcases move_cases dg .trainer w 0 m with hsame | htakes
  · rw [hsame]
    exact h
  · generalize w.move dg .trainer 0 m = w' at htakes ⊢
    cases htakes with
    | begin =>
        refine ⟨h.read, fun inode hinode => ?_, fun hsaved => ?_⟩
        · simp only [World.enter, Function.update_self, Stage.saving.injEq] at hinode
          rw [← hinode]
          simp [World.enter, Disk.openModel, Program.place]
        · simp [World.enter] at hsaved
    | flush hstage =>
        refine ⟨h.read, h.saving, fun hsaved => ?_⟩
        cases hstage.symm.trans hsaved
    | @finish inode artifact hstage =>
        refine ⟨fun b hb => List.mem_append_left _ (h.read b hb), fun inode hinode => ?_, fun _ => ?_⟩
        · simp [World.enter] at hinode
        · refine ⟨inode, h.saving inode hstage, ?_⟩
          simp [World.enter]
    | @digest inode hstage hat =>
        obtain ⟨k, hk, hmem⟩ := h.saved hstage
        cases hk.symm.trans hat
        refine ⟨fun b hb => ?_, fun inode hinode => ?_, fun hsaved => ?_⟩
        · rcases List.mem_append.mp hb with hb | hb
          · exact h.read b hb
          · rw [List.mem_singleton.mp hb]
            exact hmem
        · simp [World.enter] at hinode
        · simp [World.enter] at hsaved
    | unsaved | openSidecar | sign | replaceModel | replaceSidecar | unsigned | fail =>
        refine ⟨h.read, fun inode hinode => ?_, fun hsaved => ?_⟩
        · simp [World.enter] at hinode
        · simp [World.enter] at hsaved

/-- The step of a trainer that works alone, or of the loader. -/
def Event.OfTrainer : Event → Prop
  | .write i _ => i = 0
  | .load => True

theorem complete_step (h : Complete w) {e : Event} (he : e.OfTrainer) :
    Complete (step dg maxModelSize (fun _ => .trainer) w e) := by
  cases e with
  | write i m =>
      cases he
      exact complete_move h m
  | load => exact ⟨h.read, h.saving, h.saved⟩

/-- Whatever writers do side by side, a model that is loaded has the digest of one that a writer had read back; and
when one trainer works alone, however often it is interrupted, that one had been saved to its end. -/
theorem loads_what_was_read_back (dg : Digest) (maxModelSize : ℕ) (program : ℕ → Program) (artifact : Text)
    (events : List Event) :
    (∀ bytes sha, (events.foldl (step dg maxModelSize program) (deployed dg artifact)).loader = .loaded bytes sha →
        sha = dg.sha256 bytes ∧
          ∃ b ∈ (events.foldl (step dg maxModelSize program) (deployed dg artifact)).read, dg.sha256 b = sha) ∧
      ((∀ e ∈ events, e.OfTrainer) →
        ∀ b ∈ (events.foldl (step dg maxModelSize fun _ => .trainer) (deployed dg artifact)).read,
          b ∈ (events.foldl (step dg maxModelSize fun _ => .trainer) (deployed dg artifact)).artifacts) := by
  constructor
  · have htraced : Traced dg (events.foldl (step dg maxModelSize program) (deployed dg artifact)) :=
      List.foldlRecOn events _ (traced_deployed dg artifact) fun w hw e _ => traced_step hw e
    exact htraced.loaded
  · intro htrainer
    have hstart : Complete (deployed dg artifact) :=
      ⟨fun _ h => h, fun _ h => (by cases h), fun h => (by cases h)⟩
    have hcomplete : Complete (events.foldl (step dg maxModelSize fun _ => .trainer) (deployed dg artifact)) :=
      List.foldlRecOn events _ hstart fun w hw e he => complete_step hw (htrainer e he)
    exact hcomplete.read

/-! ## Deploying -/

/-- The model that the digest in use is of: the one before, while the digest has not been replaced. -/
def World.announced (w : World) : Option Text :=
  if w.stage 0 = .deploying then w.inUse[1]? else w.inUse.head?

/-- How far the trainer has come, with the inode `i` of the model in use. -/
def Progress (dg : Digest) (d : Disk) (artifacts : List Text) (i : ℕ) : Stage → Prop
  | .ready => ∀ k, d.modelAt .temp = some k →
      d.models k ∈ artifacts ∧ ∃ l, d.sidecarAt .temp = some l ∧ Signs dg (d.sidecars l) (d.models k)
  | .saving k => d.modelAt .temp = some k
  | .saved => ∃ k, d.modelAt .temp = some k ∧ d.models k ∈ artifacts
  | .digested fileHash => ∃ k, d.modelAt .temp = some k ∧ d.models k ∈ artifacts ∧ fileHash = dg.sha256 (d.models k)
  | .signing l fileHash => (d.sidecarAt .temp = some l ∧ d.sidecars l = []) ∧
      ∃ k, d.modelAt .temp = some k ∧ d.models k ∈ artifacts ∧ fileHash = dg.sha256 (d.models k)
  | .deploying => d.modelAt .temp = none ∧ ∃ l, d.sidecarAt .temp = some l ∧ Signs dg (d.sidecars l) (d.models i)

/-- The files in use, under the inodes `i` and `j`, are apart from those that the trainer writes. -/
structure Steady (dg : Digest) (w : World) (i j : ℕ) : Prop where
  model : w.disk.modelAt .live = some i
  sidecar : w.disk.sidecarAt .live = some j
  known : w.disk.models i ∈ w.artifacts
  current : w.inUse.head? = some (w.disk.models i)
  announced : ∃ told, w.announced = some told ∧ Signs dg (w.disk.sidecars j) told
  old : i < w.disk.next ∧ j < w.disk.next
  modelApart : ∀ k, w.disk.modelAt .temp = some k → k ≠ i ∧ k < w.disk.next
  sidecarApart : ∀ l, w.disk.sidecarAt .temp = some l → l ≠ j ∧ l < w.disk.next
  progress : Progress dg w.disk w.artifacts i (w.stage 0)

/-- A file of a model that nobody writes any more. -/
def SettledModel (w : World) (i : ℕ) : Prop := i < w.disk.next ∧ ∀ k, w.disk.modelAt .temp = some k → k ≠ i

def SettledSidecar (w : World) (j : ℕ) : Prop := j < w.disk.next ∧ ∀ l, w.disk.sidecarAt .temp = some l → l ≠ j

theorem Steady.settledModel {j : ℕ} (h : Steady dg w i j) : SettledModel w i :=
  ⟨h.old.1, fun k hk => (h.modelApart k hk).1⟩

theorem Steady.settledSidecar {j : ℕ} (h : Steady dg w i j) : SettledSidecar w j :=
  ⟨h.old.2, fun l hl => (h.sidecarApart l hl).1⟩

theorem SettledModel.inode_ne (h : SettledModel w i) : w.disk.modelInode .temp ≠ i := by
  unfold Disk.modelInode
  cases hat : w.disk.modelAt .temp with
  | none => exact h.1.ne'
  | some k => exact h.2 k hat

theorem SettledSidecar.inode_ne {j : ℕ} (h : SettledSidecar w j) : w.disk.sidecarInode .temp ≠ j := by
  unfold Disk.sidecarInode
  cases hat : w.disk.sidecarAt .temp with
  | none => exact h.1.ne'
  | some l => exact h.2 l hat

theorem modelInode_lt {j : ℕ} (h : Steady dg w i j) : w.disk.modelInode .temp < w.disk.next + 1 := by
  unfold Disk.modelInode
  cases hat : w.disk.modelAt .temp with
  | none => exact Nat.lt_succ_self _
  | some k => exact Nat.lt_succ_of_lt (h.modelApart k hat).2

theorem sidecarInode_lt {j : ℕ} (h : Steady dg w i j) : w.disk.sidecarInode .temp < w.disk.next + 1 := by
  unfold Disk.sidecarInode
  cases hat : w.disk.sidecarAt .temp with
  | none => exact Nat.lt_succ_self _
  | some l => exact Nat.lt_succ_of_lt (h.sidecarApart l hat).2

/-- A step that moves neither file and is no step into or out of a deployment leaves the announcement as it is. -/
theorem World.announced_enter (w : World) (disk : Disk) (artifacts read : List Text) {stage : Stage}
    (hbefore : w.stage 0 ≠ .deploying) (hafter : stage ≠ .deploying) :
    ({ w with disk, artifacts, read }.enter 0 stage).announced = w.announced := by
  simp only [World.announced, World.enter, Function.update_self, if_neg hbefore, if_neg hafter]

theorem steady_takes {j : ℕ} (h : Steady dg w i j) {m : Move} (hm : m ≠ .fail) (htakes : Takes dg .trainer w 0 m w') :
    ∃ i' j', Steady dg w' i' j' := by
  have hprogress := h.progress
  obtain ⟨told, htold, hsigns⟩ := h.announced
  cases htakes with
  | begin hstage =>
      have hne := h.settledModel.inode_ne
      refine ⟨i, j, ?_, h.sidecar, ?_, ?_, ?_, ?_, fun k hk => ?_, fun l hl => ?_, ?_⟩
      · simpa [World.enter, Disk.openModel, Program.place] using h.model
      · simpa [World.enter, Disk.openModel, Program.place, Function.update_of_ne hne.symm] using h.known
      · simpa [World.enter, Disk.openModel, Program.place, Function.update_of_ne hne.symm] using h.current
      · exact ⟨told, (w.announced_enter _ _ _ (by simp [hstage]) (by simp)).trans htold, hsigns⟩
      · have hold := h.old
        simp only [World.enter, Disk.openModel]
        omega
      · simp only [World.enter, Disk.openModel, Program.place, Function.update_self, Option.some.injEq] at hk
        rw [← hk]
        exact ⟨hne, modelInode_lt h⟩
      · obtain ⟨hl, hlt⟩ := h.sidecarApart l hl
        exact ⟨hl, Nat.lt_succ_of_lt hlt⟩
      · simp [World.enter, Disk.openModel, Program.place, Progress]
  | @flush inode bytes hstage =>
      rw [hstage] at hprogress
      have hne := (h.modelApart inode hprogress).1
      refine ⟨i, j, h.model, h.sidecar, ?_, ?_, ⟨told, htold, hsigns⟩, h.old, h.modelApart, h.sidecarApart, ?_⟩
      · simpa [Function.update_of_ne hne.symm] using h.known
      · simpa [Function.update_of_ne hne.symm] using h.current
      · simpa [hstage, Progress] using hprogress
  | @finish inode artifact hstage =>
      rw [hstage] at hprogress
      have hne := (h.modelApart inode hprogress).1
      refine ⟨i, j, h.model, h.sidecar, ?_, ?_, ?_, h.old, h.modelApart, h.sidecarApart, ?_⟩
      · simpa [World.enter, Function.update_of_ne hne.symm] using .inl h.known
      · simpa [World.enter, Function.update_of_ne hne.symm] using h.current
      · exact ⟨told, (w.announced_enter _ _ _ (by simp [hstage]) (by simp)).trans htold, hsigns⟩
      · simp only [World.enter, Function.update_self, Progress]
        exact ⟨inode, hprogress, by simp⟩
  | @digest inode hstage hat =>
      rw [hstage] at hprogress
      obtain ⟨k, hk, hmem⟩ := hprogress
      cases hk.symm.trans hat
      refine ⟨i, j, h.model, h.sidecar, h.known, h.current, ?_, h.old, h.modelApart, h.sidecarApart, ?_⟩
      · exact ⟨told, (w.announced_enter _ _ _ (by simp [hstage]) (by simp)).trans htold, hsigns⟩
      · simpa [World.enter, Progress] using ⟨inode, hat, hmem, rfl⟩
  | unsaved hstage hat =>
      rw [hstage] at hprogress
      obtain ⟨k, hk, -⟩ := hprogress
      cases hk.symm.trans hat
  | @openSidecar fileHash hstage =>
      rw [hstage] at hprogress
      have hne := h.settledSidecar.inode_ne
      obtain ⟨k, hk, hmem, rfl⟩ := hprogress
      refine ⟨i, j, h.model, ?_, h.known, h.current, ?_, ?_, fun k hk => ?_, fun l hl => ?_, ?_⟩
      · simpa [World.enter, Disk.openSidecar, Program.place] using h.sidecar
      · refine ⟨told, (w.announced_enter _ _ _ (by simp [hstage]) (by simp)).trans htold, ?_⟩
        simpa [World.enter, Disk.openSidecar, Program.place, Function.update_of_ne hne.symm] using hsigns
      · have hold := h.old
        simp only [World.enter, Disk.openSidecar]
        omega
      · obtain ⟨hk, hlt⟩ := h.modelApart k hk
        exact ⟨hk, Nat.lt_succ_of_lt hlt⟩
      · simp only [World.enter, Disk.openSidecar, Program.place, Function.update_self, Option.some.injEq] at hl
        rw [← hl]
        exact ⟨hne, sidecarInode_lt h⟩
      · simpa [World.enter, Disk.openSidecar, Program.place, Progress, hk] using hmem
  | @sign inode fileHash hstage =>
      rw [hstage] at hprogress
      obtain ⟨⟨hat, hempty⟩, k, hk, hmem, rfl⟩ := hprogress
      have hne := (h.sidecarApart inode hat).1
      refine ⟨i, j, h.model, h.sidecar, h.known, h.current, ?_, h.old, h.modelApart, h.sidecarApart, ?_⟩
      · refine ⟨told, (w.announced_enter _ _ _ (by simp [hstage]) (by simp)).trans htold, ?_⟩
        simpa [World.enter, Disk.writeSidecar, Function.update_of_ne hne.symm] using hsigns
      · have hsigned : Signs dg (dg.sha256 (w.disk.models k)) (w.disk.models k) := .inl rfl
        simpa [World.enter, Disk.writeSidecar, Program.ending, Progress, hempty, hat, hk] using ⟨hmem, hsigned⟩
  | @replaceModel inode hstage _ hat =>
      rw [hstage] at hprogress
      obtain ⟨hmem, l, hl, hsigned⟩ := hprogress inode hat
      refine ⟨inode, j, ?_, h.sidecar, hmem, rfl, ?_, ⟨(h.modelApart inode hat).2, h.old.2⟩, fun k hk => ?_,
        h.sidecarApart, ?_⟩
      · simpa [World.enter, Disk.replaceModel] using hat
      · -- the digest is still that of the model before
        have hready : w.stage 0 ≠ .deploying := by simp [hstage]
        rw [World.announced, if_neg hready, List.head?_eq_getElem?] at htold
        exact ⟨told, by simpa [World.announced, World.enter] using htold, hsigns⟩
      · simp [World.enter, Disk.replaceModel] at hk
      · simpa [World.enter, Disk.replaceModel, Progress, hl] using hsigned
  | @replaceSidecar inode hstage hat =>
      rw [hstage] at hprogress
      obtain ⟨hnone, l, hl, hsigned⟩ := hprogress
      cases hl.symm.trans hat
      refine ⟨i, inode, h.model, ?_, h.known, h.current, ⟨w.disk.models i, ?_, hsigned⟩,
        ⟨h.old.1, (h.sidecarApart inode hat).2⟩, h.modelApart, fun l hl => ?_, ?_⟩
      · simpa [World.enter, Disk.replaceSidecar] using hat
      · simpa [World.announced, World.enter] using h.current
      · simp [World.enter, Disk.replaceSidecar] at hl
      · simp [World.enter, Disk.replaceSidecar, Progress, hnone]
  | unsigned hstage hat =>
      rw [hstage] at hprogress
      obtain ⟨-, l, hl, -⟩ := hprogress
      cases hl.symm.trans hat
  | fail => exact absurd rfl hm

/-- A file that is settled stays as it is, whatever the trainer does next. -/
theorem settled_takes {j : ℕ} (h : Steady dg w i j) {m : Move} (htakes : Takes dg .trainer w 0 m w') (k : ℕ) :
    (SettledModel w k → SettledModel w' k ∧ w'.disk.models k = w.disk.models k) ∧
      (SettledSidecar w k → SettledSidecar w' k ∧ w'.disk.sidecars k = w.disk.sidecars k) := by
  have hprogress := h.progress
  cases htakes with
  | begin hstage =>
      refine ⟨fun hk => ⟨⟨Nat.lt_succ_of_lt hk.1, fun l hl => ?_⟩, ?_⟩, fun hk => ⟨⟨Nat.lt_succ_of_lt hk.1, hk.2⟩, rfl⟩⟩
      · simp only [World.enter, Disk.openModel, Program.place, Function.update_self, Option.some.injEq] at hl
        exact hl ▸ hk.inode_ne
      · simp [World.enter, Disk.openModel, Program.place, Function.update_of_ne hk.inode_ne.symm]
  | @flush inode bytes hstage =>
      rw [hstage] at hprogress
      exact ⟨fun hk => ⟨hk, Function.update_of_ne (hk.2 inode hprogress).symm _ _⟩, fun hk => ⟨hk, rfl⟩⟩
  | @finish inode artifact hstage =>
      rw [hstage] at hprogress
      exact ⟨fun hk => ⟨hk, Function.update_of_ne (hk.2 inode hprogress).symm _ _⟩, fun hk => ⟨hk, rfl⟩⟩
  | openSidecar hstage =>
      refine ⟨fun hk => ⟨⟨Nat.lt_succ_of_lt hk.1, hk.2⟩, rfl⟩, fun hk => ⟨⟨Nat.lt_succ_of_lt hk.1, fun l hl => ?_⟩, ?_⟩⟩
      · simp only [World.enter, Disk.openSidecar, Program.place, Function.update_self, Option.some.injEq] at hl
        exact hl ▸ hk.inode_ne
      · simp [World.enter, Disk.openSidecar, Program.place, Function.update_of_ne hk.inode_ne.symm]
  | @sign inode fileHash hstage =>
      rw [hstage] at hprogress
      exact ⟨fun hk => ⟨hk, rfl⟩,
        fun hk => ⟨hk, Function.update_of_ne (hk.2 inode hprogress.1.1).symm _ _⟩⟩
  | replaceModel =>
      refine ⟨fun hk => ⟨⟨hk.1, fun l hl => ?_⟩, rfl⟩, fun hk => ⟨hk, rfl⟩⟩
      simp [World.enter, Disk.replaceModel] at hl
  | replaceSidecar =>
      refine ⟨fun hk => ⟨hk, rfl⟩, fun hk => ⟨⟨hk.1, fun l hl => ?_⟩, rfl⟩⟩
      simp [World.enter, Disk.replaceSidecar] at hl
  | digest | unsaved | unsigned | fail => exact ⟨fun hk => ⟨hk, rfl⟩, fun hk => ⟨hk, rfl⟩⟩

/-! ## A load that the trainer overlaps -/

/-- The trainer works alone. -/
def train (dg : Digest) (w : World) (moves : List Move) : World := moves.foldl (fun w m => w.move dg .trainer 0 m) w

theorem loader_move (dg : Digest) (program : Program) (w : World) (i : ℕ) (m : Move) :
    (w.move dg program i m).loader = w.loader := by
  rcases move_cases dg program w i m with hsame | htakes
  · rw [hsame]
  · generalize w.move dg program i m = w' at htakes ⊢
    cases htakes <;> rfl

/-- What holds while a trainer that is not interrupted goes on: the files in use stay apart from its own, and a file
that was settled before is as it was. -/
structure Goes (dg : Digest) (w w' : World) : Prop where
  steady : ∃ i j, Steady dg w' i j
  loader : w'.loader = w.loader
  models : ∀ k, SettledModel w k → SettledModel w' k ∧ w'.disk.models k = w.disk.models k
  sidecars : ∀ k, SettledSidecar w k → SettledSidecar w' k ∧ w'.disk.sidecars k = w.disk.sidecars k

theorem goes_train (h : ∃ i j, Steady dg w i j) {moves : List Move} (hcalm : ∀ m ∈ moves, m ≠ .fail) :
    Goes dg w (train dg w moves) := by
  induction moves generalizing w with
  | nil => exact ⟨h, rfl, fun _ hk => ⟨hk, rfl⟩, fun _ hk => ⟨hk, rfl⟩⟩
  | cons m moves ih =>
      obtain ⟨i, j, hsteady⟩ := h
      obtain ⟨hm, hmoves⟩ := List.forall_mem_cons.mp hcalm
      change Goes dg w (train dg (w.move dg .trainer 0 m) moves)
      have hloader := loader_move dg .trainer w 0 m
      rcases move_cases dg .trainer w 0 m with hsame | htakes
      · rw [hsame]
        exact ih ⟨i, j, hsteady⟩ hmoves
      · have hrest := ih (steady_takes hsteady hm htakes) hmoves
        refine ⟨hrest.steady, hrest.loader.trans hloader, fun k hk => ?_, fun k hk => ?_⟩
        · obtain ⟨hstep, hsame⟩ := (settled_takes hsteady htakes k).1 hk
          obtain ⟨hlast, hthen⟩ := hrest.models k hstep
          exact ⟨hlast, hthen.trans hsame⟩
        · obtain ⟨hstep, hsame⟩ := (settled_takes hsteady htakes k).2 hk
          obtain ⟨hlast, hthen⟩ := hrest.sidecars k hstep
          exact ⟨hlast, hthen.trans hsame⟩

/-- Without a deployment the same model stays in use. -/
theorem inUse_train {moves : List Move} (h : ∀ m ∈ moves, m ≠ .replaceModel) (w : World) :
    (train dg w moves).inUse = w.inUse := by
  induction moves generalizing w with
  | nil => rfl
  | cons m moves ih =>
      obtain ⟨hm, hmoves⟩ := List.forall_mem_cons.mp h
      refine (ih hmoves _).trans ?_
      change (w.move dg .trainer 0 m).inUse = w.inUse
      rcases move_cases dg .trainer w 0 m with hsame | htakes
      · rw [hsame]
      · generalize w.move dg .trainer 0 m = w' at htakes ⊢
        cases htakes with
        | replaceModel => exact absurd rfl hm
        | _ => rfl

theorem steady_deployed (dg : Digest) (artifact : Text) : Steady dg (deployed dg artifact) 0 0 where
  model := rfl
  sidecar := rfl
  known := List.mem_singleton_self _
  current := rfl
  announced := ⟨artifact, rfl, .inr rfl⟩
  old := ⟨Nat.one_pos, Nat.one_pos⟩
  modelApart _ h := by cases h
  sidecarApart _ h := by cases h
  progress _ h := by cases h

/-! The operations of a load, one by one. -/

theorem Steady.load {j : ℕ} (h : Steady dg w i j) (maxModelSize : ℕ) :
    Steady dg (step dg maxModelSize (fun _ => .trainer) w .load) i j :=
  ⟨h.model, h.sidecar, h.known, h.current, h.announced, h.old, h.modelApart, h.sidecarApart, h.progress⟩

theorem load_fresh (maxModelSize : ℕ) {j : ℕ} (h : Steady dg w i j) (hl : w.loader = .fresh) :
    (step dg maxModelSize (fun _ => .trainer) w .load).loader =
      if (w.disk.models i).length ≤ maxModelSize then .measured else .failed := by
  simp only [step, hl, Loader.advance, h.model]
  by_cases hsize : (w.disk.models i).length ≤ maxModelSize
  · rw [if_pos hsize, if_neg (Nat.not_lt.mpr hsize)]
  · rw [if_neg hsize, if_pos (Nat.lt_of_not_le hsize)]

theorem load_measured (maxModelSize : ℕ) {j : ℕ} (h : Steady dg w i j) (hl : w.loader = .measured) :
    (step dg maxModelSize (fun _ => .trainer) w .load).loader = .opened j := by
  simp only [step, hl, Loader.advance, h.sidecar]

theorem load_opened (maxModelSize : ℕ) {j : ℕ} {told : Text} (h : Signs dg (w.disk.sidecars j) told)
    (hl : w.loader = .opened j) :
    (step dg maxModelSize (fun _ => .trainer) w .load).loader = .expecting (dg.sha256 told) := by
  simp only [step, hl, Loader.advance, stripPoints_signs h]

theorem load_expecting (maxModelSize : ℕ) {j : ℕ} {sha : Text} (h : Steady dg w i j) (hl : w.loader = .expecting sha) :
    (step dg maxModelSize (fun _ => .trainer) w .load).loader = .reading sha i := by
  simp only [step, hl, Loader.advance, h.model]

theorem load_reading (dg : Digest) (maxModelSize : ℕ) {sha : Text} (hl : w.loader = .reading sha i) :
    (step dg maxModelSize (fun _ => .trainer) w .load).loader =
      if dg.sha256 (w.disk.models i) = sha then .loaded (w.disk.models i) (dg.sha256 (w.disk.models i))
      else .failed := by
  simp only [step, hl, Loader.advance]

theorem load_failed (dg : Digest) (maxModelSize : ℕ) (hl : w.loader = .failed) :
    (step dg maxModelSize (fun _ => .trainer) w .load).loader = .failed := by
  simp only [step, hl, Loader.advance]

/-- A load that starts after a deployment, with what the trainer does before each of its operations. -/
def overlapped (dg : Digest) (maxModelSize : ℕ) (artifact : Text) (gaps : List (List Move)) : World :=
  gaps.foldl (fun w moves => step dg maxModelSize (fun _ => .trainer) (train dg w moves) .load) (deployed dg artifact)

/-- While a trainer saves and deploys models again and again, a load gives the one in use, or it fails: when it opens
the digest while the model has been replaced and the digest has not, or when a deployment comes between the opening of
the digest and that of the model. -/
theorem deployment_keeps_loading (dg : Digest) (maxModelSize : ℕ) (artifact : Text) (m₁ m₂ m₃ m₄ m₅ : List Move)
    (hcalm : ∀ moves ∈ [m₁, m₂, m₃, m₄, m₅], ∀ m ∈ moves, m ≠ .fail) :
    let atSize := train dg (deployed dg artifact) m₁
    let atDigest := train dg (overlapped dg maxModelSize artifact [m₁]) m₂
    let atModel := train dg (overlapped dg maxModelSize artifact [m₁, m₂, m₃]) m₄
    ∃ checked told current, atSize.inUse.head? = some checked ∧ atDigest.announced = some told ∧
      atModel.inUse.head? = some current ∧ current ∈ atModel.artifacts ∧
      (overlapped dg maxModelSize artifact [m₁, m₂, m₃, m₄, m₅]).loader =
        (if checked.length ≤ maxModelSize ∧ dg.sha256 current = dg.sha256 told then
          .loaded current (dg.sha256 current) else .failed) ∧
      (atDigest.stage 0 ≠ .deploying → (∀ m ∈ m₃ ++ m₄, m ≠ .replaceModel) → current = told) := by
  simp only [List.forall_mem_cons, List.not_mem_nil, false_implies, implies_true, and_true] at hcalm
  obtain ⟨h₁, h₂, h₃, h₄, h₅⟩ := hcalm
  intro w₁ w₂ w₄
  have g₁ : Goes dg _ w₁ := goes_train ⟨0, 0, steady_deployed dg artifact⟩ h₁
  obtain ⟨i₁, j₁, s₁⟩ := g₁.steady
  have g₂ : Goes dg _ w₂ := goes_train ⟨i₁, j₁, s₁.load maxModelSize⟩ h₂
  obtain ⟨i₂, j₂, s₂⟩ := g₂.steady
  have g₃ := goes_train ⟨i₂, j₂, s₂.load maxModelSize⟩ h₃
  obtain ⟨i₃, j₃, s₃⟩ := g₃.steady
  have g₄ : Goes dg _ w₄ := goes_train ⟨i₃, j₃, s₃.load maxModelSize⟩ h₄
  obtain ⟨i₄, j₄, s₄⟩ := g₄.steady
  have g₅ := goes_train ⟨i₄, j₄, s₄.load maxModelSize⟩ h₅
  obtain ⟨told, htold, hsigns⟩ := s₂.announced
  have hfirst := load_fresh maxModelSize s₁ g₁.loader
  refine ⟨w₁.disk.models i₁, told, w₄.disk.models i₄, s₁.current, htold, s₄.current, s₄.known, ?_,
    fun hstage hcalm => ?_⟩
  · by_cases hsize : (w₁.disk.models i₁).length ≤ maxModelSize
    · rw [if_pos hsize] at hfirst
      have hsecond := load_measured maxModelSize s₂ (g₂.loader.trans hfirst)
      obtain ⟨-, hsidecar⟩ := g₃.sidecars j₂ s₂.settledSidecar
      have hthird := load_opened maxModelSize (hsidecar ▸ hsigns) (g₃.loader.trans hsecond)
      have hfourth := load_expecting maxModelSize s₄ (g₄.loader.trans hthird)
      have hfifth := g₅.loader.trans hfourth
      obtain ⟨-, hmodel⟩ := g₅.models i₄ s₄.settledModel
      have hlast := load_reading dg maxModelSize hfifth
      rw [hmodel] at hlast
      simp only [hsize, true_and]
      exact hlast
    · rw [if_neg hsize] at hfirst
      have hsecond := load_failed dg maxModelSize (g₂.loader.trans hfirst)
      have hthird := load_failed dg maxModelSize (g₃.loader.trans hsecond)
      have hfourth := load_failed dg maxModelSize (g₄.loader.trans hthird)
      rw [if_neg fun h => hsize h.1]
      exact load_failed dg maxModelSize (g₅.loader.trans hfourth)
  · obtain ⟨hthird, hfourth⟩ := List.forall_mem_append.mp hcalm
    have hsame : w₄.inUse = w₂.inUse := (inUse_train hfourth _).trans (inUse_train hthird _)
    rw [World.announced, if_neg hstage, ← hsame, s₄.current] at htold
    exact Option.some.inj htold

/-- A digest that only looks at the number of bytes. -/
def countingDigest : Digest where
  sha256 data := (List.range 64).map fun k => if data.length % 2 ^ (k + 1) < 2 ^ k then 48 else 49
  length_eq data := by simp
  hex data c hc := by
    obtain ⟨k, -, rfl⟩ := List.mem_map.mp hc
    split <;> simp

/-- A cycle up to its deployment. -/
def savingCycle : List Move := [.begin, .flush [1], .finish [1, 2], .digest, .openSidecar, .sign]

/-- A load that opens the digest before a deployment and the model after it, and one that is done before it. -/
theorem deployment_keeps_loading_half :
    (overlapped countingDigest 9 [1] [savingCycle, [], [.replaceModel], [.replaceSidecar], []]).loader = .failed ∧
      (overlapped countingDigest 9 [1] [savingCycle, [], [], [], [.replaceModel, .replaceSidecar]]).loader =
        .loaded [1] (countingDigest.sha256 [1]) := by
  constructor
  · obtain ⟨checked, told, current, hchecked, htold, hcurrent, -, hloader, -⟩ :=
      deployment_keeps_loading countingDigest 9 [1] savingCycle [] [.replaceModel] [.replaceSidecar] [] (by
        simp [savingCycle])
    have hwas : some [1] = some told := htold
    have hnow : some [1, 2] = some current := hcurrent
    cases hwas
    cases hnow
    have hdiffer : countingDigest.sha256 [1, 2] ≠ countingDigest.sha256 [1] := by decide +kernel
    rw [hloader, if_neg fun h => hdiffer h.2]
  · obtain ⟨checked, told, current, hchecked, htold, hcurrent, -, hloader, hsame⟩ :=
      deployment_keeps_loading countingDigest 9 [1] savingCycle [] [] [] [.replaceModel, .replaceSidecar] (by
        simp [savingCycle])
    have hsize : some [1] = some checked := hchecked
    have hwas : some [1] = some told := htold
    cases hsize
    cases hwas
    cases hsame (by decide +kernel) (by simp)
    rw [hloader, if_pos ⟨by decide, rfl⟩]

end NeuralSoc.Artifacts
