import NeuralSoc.Dlq.Paths

/-! # DLQ files outside their directory -/

namespace NeuralSoc.Dlq

open Shell

variable {host : Host} {path : RealPath}

/-! ## The test on the text -/

theorem RealPath.slash_not_mem (path : RealPath) : ∀ name ∈ path.names, slash ∉ name :=
  fun name hname => (path.isName name hname).2.1

theorem RealPath.text_of_ne_nil (h : path.names ≠ []) : path.text = spelled slash path.names := if_neg h

theorem RealPath.text_root (h : path.names = []) : path.text = [slash] := if_pos h

/-- The text of every path begins with a slash, and that of none with two. -/
theorem RealPath.root_prefix (path : RealPath) :
    [slash] <+: path.text ∧ ¬ [slash, slash] <+: path.text := by
  unfold RealPath.text
  split
  · simp
  · next hne =>
      obtain ⟨name, rest, hnames⟩ := List.exists_cons_of_ne_nil hne
      obtain ⟨hname, hslash, -⟩ := path.isName name (hnames ▸ List.mem_cons_self ..)
      obtain ⟨c, more, rfl⟩ := List.exists_cons_of_ne_nil hname
      rw [hnames, spelled_cons, List.cons_append, List.cons_prefix_cons, List.cons_prefix_cons,
        List.cons_prefix_cons]
      refine ⟨⟨rfl, List.nil_prefix⟩, fun h => hslash ?_⟩
      rw [h.2.1]
      exact List.mem_cons_self ..

/-- The directory is not the root, so a path beside it has names too. -/
theorem ne_nil_of_beside {base path : List Text} (hbase : base ≠ []) (h : Beside base path) : path ≠ [] := by
  rcases h with rfl | ⟨parents, name, more, rest, -, -, rfl⟩
  · exact hbase
  · simp

/-- What passes the test and is not in the directory. -/
theorem passes_not_below_iff (base path : RealPath) :
    base.text <+: path.text ∧ ¬ base.text ++ [slash] <+: path.text ↔
      base.names = [] ∨ Beside base.names path.names := by
  by_cases hroot : base.names = []
  · rw [base.text_root hroot]
    exact iff_of_true path.root_prefix (.inl hroot)
  · rw [base.text_of_ne_nil hroot, or_iff_right hroot]
    by_cases hpath : path.names = []
    · obtain ⟨name, rest, hnames⟩ := List.exists_cons_of_ne_nil hroot
      obtain ⟨c, more, hname⟩ :=
        List.exists_cons_of_ne_nil (base.isName name (hnames ▸ List.mem_cons_self ..)).1
      have hlong : ¬ spelled slash base.names <+: [slash] := by
        simp [hnames, hname]
      rw [path.text_root hpath]
      exact iff_of_false (fun h => hlong h.1) fun h => ne_nil_of_beside hroot h hpath
    · rw [path.text_of_ne_nil hpath]
      exact spelled_prefix_not_below_iff base.slash_not_mem path.slash_not_mem

/-! ## The returned path -/

variable (host)

/-- The default file, or below the resolved `/tmp/dlq`. -/
def InDlqDirectory (path : Text) : Prop :=
  path = defaultPath ∨ (allowedBaseDir host).text ++ [slash] <+: path

/-- `/tmp/dlq` is not a link to the root, and the resolved path is neither that directory nor at or below a sibling
whose name goes on where its own ends. -/
def KeepsInside (resolved : RealPath) : Prop :=
  resolved.text = defaultPath ∨
    (allowedBaseDir host).names ≠ [] ∧ ¬ Beside (allowedBaseDir host).names resolved.names

theorem allowedOrDefault_inside_iff (resolved : RealPath) :
    InDlqDirectory host (allowedOrDefault host resolved) ↔ KeepsInside host resolved := by
  have hpasses := passes_not_below_iff (allowedBaseDir host) resolved
  rw [KeepsInside, ← not_or, ← hpasses, InDlqDirectory, allowedOrDefault]
  by_cases h : (allowedBaseDir host).text <+: resolved.text
  · rw [if_pos h]
    simp [h]
  · rw [if_neg h]
    simp [h]

/-- Both paths stay in the directory exactly when what they resolve to does not pass beside it. -/
theorem dlq_path_inside_iff (raw pod : Text) :
    ((∀ path ∈ resolveDlqFilePath host raw pod, InDlqDirectory host path) ↔
      ∀ c ∈ candidate host raw pod, KeepsInside host (host.realpath c)) ∧
    (InDlqDirectory host (sinkDlqPath host raw) ↔ KeepsInside host (host.realpath raw)) := by
  refine ⟨?_, allowedOrDefault_inside_iff host _⟩
  rw [resolveDlqFilePath]
  cases candidate host raw pod with
  | none => simp
  | some c => simpa using allowedOrDefault_inside_iff host (host.realpath c)

theorem dlq_path_escapes :
    (¬ ∀ (host : Host) (raw pod : Text), ∀ path ∈ resolveDlqFilePath host raw pod, InDlqDirectory host path) ∧
      ¬ ∀ (host : Host) (raw : Text), InDlqDirectory host (sinkDlqPath host raw) := by
  have hresolved : resolveDlqFilePath plainHost (points "/tmp/dlq-evil/alerts.jsonl") (points "default") =
      some (points "/tmp/dlq-evil/alerts.jsonl") := by decide +kernel
  have hsink : sinkDlqPath plainHost (points "/tmp/dlq-evil/alerts.jsonl") =
      points "/tmp/dlq-evil/alerts.jsonl" := by decide +kernel
  have hbase : (allowedBaseDir plainHost).text = points "/tmp/dlq" := by decide +kernel
  have hout : ¬ InDlqDirectory plainHost (points "/tmp/dlq-evil/alerts.jsonl") := by
    rw [InDlqDirectory, hbase]
    decide +kernel
  exact ⟨fun h => hout (h _ _ _ _ hresolved), fun h => hout (hsink ▸ h _ _)⟩

end NeuralSoc.Dlq
