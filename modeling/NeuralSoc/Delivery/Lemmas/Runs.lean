import NeuralSoc.Delivery.Lemmas.Stages

/-!
# What every action of the pipeline keeps

The rows of the id, in the table and on their way to it, are rows of messages. A restart reads on from what is
committed, and below that every message is settled.
-/

namespace NeuralSoc.Delivery

open Sink

variable {db : Tenants.Database}

/-! ## Passes -/

@[simp] theorem attempt_past (site : Site) (outcome : Outcome) (batch : List Item) (p : Pipeline db) :
    (p.attempt site outcome batch).past = p.past := by
  unfold Pipeline.attempt
  cases requestBody site.runtime batch <;> rfl

@[simp] theorem attempt_topic (site : Site) (outcome : Outcome) (batch : List Item) (p : Pipeline db) :
    (p.attempt site outcome batch).topic = p.topic := by
  unfold Pipeline.attempt
  cases requestBody site.runtime batch <;> rfl

@[simp] theorem attempt_position (site : Site) (outcome : Outcome) (batch : List Item) (p : Pipeline db) :
    (p.attempt site outcome batch).position = p.position := by
  unfold Pipeline.attempt
  cases requestBody site.runtime batch <;> rfl

@[simp] theorem pass_past (site : Site) (turn : Turn) (p : Pipeline db) : (p.pass site turn).past = p.past := by
  unfold Pipeline.pass
  dsimp only
  split
  · exact attempt_past site _ _ p
  · rfl

@[simp] theorem stop_past (site : Site) (outcome : Outcome) (commit : Except Exc Unit) (p : Pipeline db) :
    (p.stop site outcome commit).past = p.past := by
  unfold Pipeline.stop
  dsimp only
  split
  · rfl
  · exact attempt_past site _ _ p

@[simp] theorem stop_position (site : Site) (outcome : Outcome) (commit : Except Exc Unit) (p : Pipeline db) :
    (p.stop site outcome commit).position = p.position := by
  unfold Pipeline.stop
  dsimp only
  split
  · rfl
  · exact attempt_position site _ _ p

theorem shutdown_running (rt : Runtime) (endpoint : IngestFn) (commit : Except Exc Unit) (s : SinkState) :
    (shutdown rt endpoint commit s).running = false := by
  unfold shutdown
  dsimp only
  split
  · rfl
  · split
    · split
      · rfl
      · cases commit <;> rfl
    · rfl

@[simp] theorem pass_topic (site : Site) (turn : Turn) (p : Pipeline db) : (p.pass site turn).topic = p.topic := by
  unfold Pipeline.pass
  dsimp only
  split
  · exact attempt_topic site _ _ p
  · rfl

@[simp] theorem stop_topic (site : Site) (outcome : Outcome) (commit : Except Exc Unit) (p : Pipeline db) :
    (p.stop site outcome commit).topic = p.topic := by
  unfold Pipeline.stop
  dsimp only
  split
  · rfl
  · exact attempt_topic site _ _ p

section Runs

variable (site : Site) (k : String) (tp : TopicPartition) (topic : Topic) (Good : ℕ → Option Tenants.Alert → Prop)

/-- What the tenant sees under the id. -/
def Pipeline.shown (p : Pipeline db) : Option Tenants.Alert := p.table.view site.tenantId k

structure Invariant (p : Pipeline db) : Prop where
  sound : Sound site k tp topic Good (p.position tp) p.sink p.past (p.shown site k)
  running : p.sink.running = true → Kept site k tp topic Good (p.position tp) p.sink p.past (p.shown site k)
  origin : ∀ a, p.shown site k = some a → ∃ j, messageRow db site topic tp j = some a
  outstanding : ∀ body ∈ p.outstanding, ∀ alert ∈ body, ∀ a, stored db site alert = some a → a.alertId = k →
    ∃ j, messageRow db site topic tp j = some a

variable {site k tp topic Good} {p : Pipeline db}

theorem polled_kept (hgrows : ∀ q, p.topic q <+: topic q) (turn : Turn)
    (h : Kept site k tp topic Good (p.position tp) p.sink p.past (p.shown site k)) :
    Kept site k tp topic Good (p.polledPosition turn tp) (pollStage site.runtime (turn.env site p) p.sink) p.past
      (p.shown site k) := by
  unfold pollStage Pipeline.polledPosition Turn.env
  cases turn.plan with
  | none =>
      dsimp only
      split <;> exact h
  | some plan =>
      dsimp only
      split
      · exact fetch_kept hgrows plan h
      · exact h

section

variable (hsingle : ∀ q i, Names site.runtime topic q k i → q = tp)

include hsingle

/-- What a request may write and what it may leave outstanding are rows of the batch. -/
theorem attempt_origin (outcome : Outcome) {s : SinkState} {position : ℕ} {past : List Event}
    {shown : Option Tenants.Alert} (hkept : Kept site k tp topic Good position s past shown)
    (h : Invariant site k tp topic Good p) :
    (∀ a, (p.attempt site outcome s.batch).shown site k = some a → ∃ j, messageRow db site topic tp j = some a) ∧
      ∀ body ∈ (p.attempt site outcome s.batch).outstanding, ∀ alert ∈ body, ∀ a, stored db site alert = some a →
        a.alertId = k → ∃ j, messageRow db site topic tp j = some a := by
  have hrow : ∀ it ∈ s.batch, it.data.get "alert_id" = .str k → ∀ a, rowOf db site it.data = some a →
      ∃ j, messageRow db site topic tp j = some a := by
    intro it hit hid a ha
    obtain ⟨htp, -⟩ := hkept.names hsingle hit hid
    exact ⟨it.offset, (hkept.row hit htp).trans ha⟩
  constructor
  · intro a ha
    cases attempt_view p outcome s.batch k with
    | inl hsame => exact h.origin a (hsame.symm.trans ha)
    | inr hnew =>
        obtain ⟨it, hit, hid, b, hb, hview⟩ := hnew
        cases hview.symm.trans ha
        exact hrow it hit hid a hb
  · intro body hbody alert halert a ha hak
    have hmem : body ∈ p.outstanding ∨ body = (sent site.runtime s.batch).map Entry.alert := by
      unfold Pipeline.attempt at hbody
      cases hrequest : requestBody site.runtime s.batch with
      | none =>
          rw [hrequest] at hbody
          exact .inl hbody
      | some sentBody =>
          rw [hrequest] at hbody
          cases requestBody_eq_some hrequest
          dsimp only at hbody
          split at hbody
          · exact (List.mem_append.mp hbody).imp_right List.mem_singleton.mp
          · exact .inl hbody
    cases hmem with
    | inl hold => exact h.outstanding body hold alert halert a ha hak
    | inr hnew =>
        rw [hnew] at halert
        obtain ⟨e, he, rfl⟩ := List.mem_map.mp halert
        obtain ⟨it, hit, hid, hrow'⟩ := rowOf_sent he ha
        exact hrow it hit (hak ▸ hid) a hrow'

variable (hwrite : ∀ i j a, i ≤ j → messageRow db site topic tp j = some a → Good i (some a))

include hwrite

theorem pass_invariant (hgrows : ∀ q, p.topic q <+: topic q) (turn : Turn) (hrun : p.sink.running = true)
    (h : Invariant site k tp topic Good p) : Invariant site k tp topic Good (p.pass site turn) := by
  have hpolled := polled_kept hgrows turn (h.running hrun)
  have hflushed := flushStage_kept hsingle hwrite (turn.env site p) p turn.outcome rfl hpolled
  have hkept : Kept site k tp topic Good ((p.pass site turn).position tp) (p.pass site turn).sink
      (p.pass site turn).past ((p.pass site turn).shown site k) := by
    rw [pass_past]
    exact cycle_kept hflushed
  have horigin := attempt_origin hsingle turn.outcome hpolled h
  refine ⟨hkept.sound, fun _ => hkept, ?_, ?_⟩
  · unfold Pipeline.pass
    dsimp only
    split
    · exact horigin.1
    · exact h.origin
  · unfold Pipeline.pass
    dsimp only
    split
    · exact horigin.2
    · exact h.outstanding

theorem stop_invariant (outcome : Outcome) (commit : Except Exc Unit) (hrun : p.sink.running = true)
    (h : Invariant site k tp topic Good p) : Invariant site k tp topic Good (p.stop site outcome commit) := by
  have hkept := h.running hrun
  have hsound := shutdown_sound hsingle hwrite p outcome commit hkept
  have horigin := attempt_origin hsingle outcome hkept h
  constructor
  case sound =>
    rw [stop_past, stop_position]
    exact hsound
  case running =>
    intro hrun'
    rw [Pipeline.stop, shutdown_running] at hrun'
    cases hrun'
  case origin =>
    unfold Pipeline.stop
    dsimp only
    split
    · exact h.origin
    · exact horigin.1
  case outstanding =>
    unfold Pipeline.stop
    dsimp only
    split
    · exact h.outstanding
    · exact horigin.2

end

theorem restart_invariant (now : ℚ) (h : Invariant site k tp topic Good p) :
    Invariant site k tp topic Good (p.restart now) := by
  have hkept : Kept site k tp topic Good (committedPosition p.log tp) (.start now) p.log (p.shown site k) := by
    have hlog : p.log ++ (SinkState.start now).log = p.log := List.append_nil _
    refine ⟨⟨committedPosition p.log tp, ?_⟩, nofun, List.Pairwise.nil, nofun⟩
    rw [hlog]
    constructor
    case settled => exact h.sound.resumable
    case held => exact fun i hle hlt => absurd hlt (Nat.not_lt.mpr hle)
    case ahead => exact nofun
    case reached => exact Nat.le_refl _
    case low => exact Nat.le_refl _
  exact ⟨hkept.sound, fun _ => hkept, h.origin, h.outstanding⟩

/-- The row changes to one that counts for every message that was delivered. -/
theorem Sound.shown {position : ℕ} {s : SinkState} {past : List Event} {shown shown' : Option Tenants.Alert}
    (h : Sound site k tp topic Good position s past shown) (hgood : ∀ i, Good i shown → Good i shown') :
    Sound site k tp topic Good position s past shown' where
  resumable i hi hnames := (h.resumable i hi hnames).imp_right (hgood i)
  unheld i hi hnames := (h.unheld i hi hnames).imp_left (Or.imp_right (hgood i))

theorem Kept.shown {position : ℕ} {s : SinkState} {past : List Event} {shown shown' : Option Tenants.Alert}
    (h : Kept site k tp topic Good position s past shown) (hgood : ∀ i, Good i shown → Good i shown') :
    Kept site k tp topic Good position s past shown' := by
  have hlog : s.log = s.log ++ [] := (List.append_nil _).symm
  apply h.extend rfl hlog rfl nofun
  exact fun i h => .inl (hgood i h)

/-- The table shows the row of before, or that of a message that counts. -/
theorem Invariant.rewrite {table : Tenants.AlertTable db} {outstanding : List (List AlertPayload)}
    (h : Invariant site k tp topic Good p) (hsub : outstanding ⊆ p.outstanding)
    (hcases : table.view site.tenantId k = p.shown site k ∨ ∃ a, table.view site.tenantId k = some a ∧
      (∃ j, messageRow db site topic tp j = some a) ∧ ∀ i, Good i (some a)) :
    Invariant site k tp topic Good { p with table, outstanding } := by
  have hgood : ∀ i, Good i (p.shown site k) → Good i (table.view site.tenantId k) := by
    intro i hi
    cases hcases with
    | inl hsame => rwa [hsame]
    | inr hnew =>
        obtain ⟨a, hview, -, hlate⟩ := hnew
        rw [hview]
        exact hlate i
  constructor
  case sound => exact h.sound.shown hgood
  case running => exact fun hrun => (h.running hrun).shown hgood
  case origin =>
    intro a ha
    cases hcases with
    | inl hsame => exact h.origin a (hsame.symm.trans ha)
    | inr hnew =>
        obtain ⟨b, hview, hrow, -⟩ := hnew
        cases hview.symm.trans ha
        exact hrow
  case outstanding => exact fun body hbody => h.outstanding body (hsub hbody)

theorem carryOut_invariant (n : ℕ) (hlate : ∀ i j a, messageRow db site topic tp j = some a → Good i (some a))
    (h : Invariant site k tp topic Good p) : Invariant site k tp topic Good (p.carryOut site n) := by
  unfold Pipeline.carryOut
  cases hbody : p.outstanding[n]? with
  | none => exact h
  | some body =>
      apply h.rewrite (List.eraseIdx_sublist _ _).subset
      have hview := upserts_cases Tenants.Alert.alertId (p.table.view site.tenantId)
        (body.filterMap (stored db site)) k
      rw [← ingestBody_view] at hview
      cases hview with
      | inl hsame => exact .inl hsame
      | inr hnew =>
          obtain ⟨a, ha, hak, hview⟩ := hnew
          obtain ⟨alert, halert, hstored⟩ := List.mem_filterMap.mp ha
          obtain ⟨j, hj⟩ := h.outstanding body (List.mem_of_getElem? hbody) alert halert a hstored hak
          exact .inr ⟨a, hview, ⟨j, hj⟩, fun i => hlate i j a hj⟩

/-- Another sensor does not touch the id of the tenant. -/
theorem ingest_invariant (tenantId : ℕ) (batch : List Tenants.AlertPayload)
    (hforeign : tenantId = site.tenantId → ∀ d ∈ batch, d.alertId ≠ k)
    (h : Invariant site k tp topic Good p) :
    Invariant site k tp topic Good (step site p (.ingest tenantId batch)) := by
  apply h.rewrite (List.Subset.refl _)
  by_cases htenant : tenantId = site.tenantId
  · have hview := upserts_cases Tenants.Alert.alertId (p.table.view tenantId)
      ((batch.filter (Tenants.accepts db tenantId)).map (Tenants.AlertPayload.row tenantId)) k
    rw [← (Tenants.ingestAlerts_chain tenantId batch p.table).2.1] at hview
    cases hview with
    | inl hsame =>
        rw [htenant] at hsame ⊢
        exact .inl hsame
    | inr hnew =>
        obtain ⟨a, ha, hak, -⟩ := hnew
        obtain ⟨d, hd, rfl⟩ := List.mem_map.mp ha
        exact absurd hak (hforeign htenant d (List.mem_filter.mp hd).1)
  · exact .inl (congrFun (ingestAlerts_view_of_ne htenant batch p.table) k)

/-! ## Runs -/

theorem topic_grows (site : Site) (p : Pipeline db) (a : Action) (q : TopicPartition) :
    p.topic q <+: (step site p a).topic q := by
  cases a with
  | produce tp record =>
      by_cases hq : q = tp
      · rw [hq]
        simp [step]
      · simp [step, Function.update_of_ne hq]
  | pass turn =>
      simp only [step]
      split
      · simp
      · exact List.prefix_refl _
  | stop outcome commit =>
      simp only [step]
      split
      · simp
      · exact List.prefix_refl _
  | restart now => exact List.prefix_refl _
  | carryOut n =>
      simp only [step, Pipeline.carryOut]
      split <;> exact List.prefix_refl _
  | ingest tenantId batch => exact List.prefix_refl _

theorem run_topic_grows (site : Site) (actions : List Action) (p : Pipeline db) (q : TopicPartition) :
    p.topic q <+: (actions.foldl (step site) p).topic q := by
  induction actions generalizing p with
  | nil => exact List.prefix_refl _
  | cons a actions ih => exact (topic_grows site p a q).trans (ih (step site p a))

/-- Nothing but the producers writes to the topic. -/
theorem run_topic_of_not_produced (site : Site) {actions : List Action} {q : TopicPartition}
    (h : ∀ record, .produce q record ∉ actions) (p : Pipeline db) :
    (actions.foldl (step site) p).topic q = p.topic q := by
  induction actions generalizing p with
  | nil => rfl
  | cons a actions ih =>
      rw [List.foldl_cons, ih fun record hmem => h record (List.mem_cons_of_mem _ hmem)]
      cases a with
      | produce tp record =>
          have hq : q ≠ tp := by
            rintro rfl
            exact h record List.mem_cons_self
          exact Function.update_of_ne hq _ _
      | pass turn =>
          simp only [step]
          split
          · simp
          · rfl
      | stop outcome commit =>
          simp only [step]
          split
          · simp
          · rfl
      | restart now => rfl
      | carryOut n =>
          simp only [step, Pipeline.carryOut]
          split <;> rfl
      | ingest tenantId batch => rfl

section

variable (hsingle : ∀ q i, Names site.runtime topic q k i → q = tp)
  (hwrite : ∀ i j a, i ≤ j → messageRow db site topic tp j = some a → Good i (some a))

include hsingle hwrite

theorem step_invariant (hgrows : ∀ q, p.topic q <+: topic q) {a : Action}
    (hforeign : ∀ batch, a = .ingest site.tenantId batch → ∀ d ∈ batch, d.alertId ≠ k)
    (hlate : ∀ n, a = .carryOut n → ∀ i j b, messageRow db site topic tp j = some b → Good i (some b))
    (h : Invariant site k tp topic Good p) : Invariant site k tp topic Good (step site p a) := by
  cases a with
  | produce q record => exact ⟨h.sound, h.running, h.origin, h.outstanding⟩
  | pass turn =>
      simp only [step]
      split
      · rename_i hrun
        exact pass_invariant hsingle hwrite hgrows turn hrun h
      · exact h
  | stop outcome commit =>
      simp only [step]
      split
      · rename_i hrun
        exact stop_invariant hsingle hwrite outcome commit hrun h
      · exact h
  | restart now => exact restart_invariant now h
  | carryOut n => exact carryOut_invariant n (hlate n rfl) h
  | ingest tenantId batch =>
      apply ingest_invariant tenantId batch _ h
      intro htenant
      exact hforeign batch (by rw [htenant])

theorem run_invariant (actions : List Action) (htopic : (actions.foldl (step site) p).topic = topic)
    (hforeign : ∀ batch, .ingest site.tenantId batch ∈ actions → ∀ d ∈ batch, d.alertId ≠ k)
    (hlate : ∀ n, .carryOut n ∈ actions → ∀ i j b, messageRow db site topic tp j = some b → Good i (some b))
    (h : Invariant site k tp topic Good p) :
    Invariant site k tp topic Good (actions.foldl (step site) p) := by
  induction actions generalizing p with
  | nil => exact h
  | cons a actions ih =>
      apply ih htopic
      · exact fun batch hbatch => hforeign batch (List.mem_cons_of_mem _ hbatch)
      · exact fun n hn => hlate n (List.mem_cons_of_mem _ hn)
      · apply step_invariant hsingle hwrite _ _ _ h
        · exact fun q => htopic ▸ run_topic_grows site (a :: actions) p q
        · rintro batch rfl
          exact hforeign batch List.mem_cons_self
        · rintro n rfl
          exact hlate n List.mem_cons_self

end

theorem start_invariant (now : ℚ) : Invariant site k tp topic Good (Pipeline.start now : Pipeline db) := by
  have hkept : Kept site k tp topic Good 0 (.start now) [] none := by
    refine ⟨⟨0, ?_⟩, nofun, List.Pairwise.nil, nofun⟩
    constructor
    case settled => exact nofun
    case held => exact nofun
    case ahead => exact nofun
    case reached => exact Nat.le_refl _
    case low => exact Nat.le_refl _
  constructor
  case sound => exact hkept.sound
  case running => exact fun _ => hkept
  case origin =>
    intro a ha
    cases ha
  case outstanding => exact fun body hbody => absurd hbody List.not_mem_nil

end Runs

end NeuralSoc.Delivery
