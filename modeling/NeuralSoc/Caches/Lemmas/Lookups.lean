import NeuralSoc.Caches.Lookups
import NeuralSoc.Caches.Theorems

/-! # What the tasks of a client have learned -/

namespace NeuralSoc.Caches

variable {ι ο ν τ : Type*}

/-! ## Settling a task -/

section

variable {c : Client ι ο ν τ} {task : Task ι ν τ}

/-- The tasks that were there are there still, though some of them may have come to an end. -/
def Keeps (tasks tasks' : List (Task ι ν τ)) : Prop :=
  ∀ task ∈ tasks, ∃ task' ∈ tasks', task'.query = task.query ∧ task'.asked = task.asked

theorem mem_settle {i : ℕ} {status : Status ν} {t : Task ι ν τ} (hi : c.tasks[i]? = some task)
    (ht : t ∈ (c.settle i status).tasks) : t ∈ c.tasks ∨ t = { task with status } := by
  obtain ⟨j, hj⟩ := List.mem_iff_getElem?.mp ht
  rw [Client.settle, List.getElem?_modify] at hj
  by_cases hij : i = j
  · subst hij
    rw [hi] at hj
    simp only [↓reduceIte, Option.map_eq_map, Option.map_some, Option.some.injEq] at hj
    exact .inr hj.symm
  · simp only [hij, ↓reduceIte, Option.map_eq_map, id_eq, Option.map_id_fun'] at hj
    exact .inl (List.mem_of_getElem? hj)

theorem keeps_settle {i : ℕ} (status : Status ν) : Keeps c.tasks (c.settle i status).tasks := by
  intro t ht
  obtain ⟨j, hj⟩ := List.mem_iff_getElem?.mp ht
  by_cases hij : i = j
  · refine ⟨{ t with status }, List.mem_iff_getElem?.mpr ⟨j, ?_⟩, rfl, rfl⟩
    simp [Client.settle, hij, hj]
  · refine ⟨t, List.mem_iff_getElem?.mpr ⟨j, ?_⟩, rfl, rfl⟩
    simp [Client.settle, hij, hj]

end

theorem set_mem_of_lastSet {calls : List (Call ν τ)} {key : String} {value : ν} {t : τ}
    (h : lastSet calls key = some (value, t)) : .set key value t ∈ calls := by
  induction calls using List.reverseRecOn with
  | nil => cases h
  | append_singleton calls call ih =>
      cases call with
      | get k now =>
          rw [lastSet_concat_get] at h
          exact List.mem_append_left _ (ih h)
      | set k v now =>
          rw [lastSet_concat_set] at h
          split at h
          · next hk =>
              simp only [Option.some.injEq, Prod.mk.injEq] at h
              obtain ⟨rfl, rfl⟩ := h
              rw [hk]
              exact List.mem_append_right _ (List.mem_singleton_self _)
          · exact List.mem_append_left _ (ih h)

variable [LinearOrder τ] [Add τ]

/-! ## Where an answer comes from -/

/-- The answer of a task: there was nothing to ask for, or it is from a response for the key of its query, which
came after the question or no longer than the time to live before. -/
inductive Explained (l : Lookup ι ο ν) (ttl : τ) (received : List (String × ο × τ)) (query : ι) (asked : τ) :
    Except Exc ν → Prop
  | nothing (h : l.cacheKey query = none ∨ l.requestKey query = none) :
      Explained l ttl received query asked (.ok l.nothing)
  | own {key : String} {outcome : ο} {t : τ} (hkey : l.requestKey query = some key)
      (hmem : (key, outcome, t) ∈ received) (hafter : asked ≤ t) :
      Explained l ttl received query asked ((l.answer key outcome).map Prod.fst)
  | cached {key : String} {outcome : ο} {t : τ} {value : ν} (hkey : l.cacheKey query = some key)
      (hmem : (key, outcome, t) ∈ received) (hanswer : l.answer key outcome = .ok (value, true))
      (hfresh : asked < t + ttl) : Explained l ttl received query asked (.ok value)

def Accounted (l : Lookup ι ο ν) (ttl : τ) (received : List (String × ο × τ)) (task : Task ι ν τ) : Prop :=
  match task.status with
  | .waiting key => l.requestKey task.query = some key
  | .finished answer => Explained l ttl received task.query task.asked answer
  | .cancelled => True

variable {l : Lookup ι ο ν} {ttl : τ} {n : ℕ} {c : Client ι ο ν τ} {received : List (String × ο × τ)}
variable {task : Task ι ν τ}

theorem Explained.mono {query : ι} {asked : τ} {a : Except Exc ν} (h : Explained l ttl received query asked a)
    (r : String × ο × τ) : Explained l ttl (received ++ [r]) query asked a := by
  cases h with
  | nothing h => exact .nothing h
  | own hkey hmem hafter => exact .own hkey (List.mem_append_left _ hmem) hafter
  | cached hkey hmem hanswer hfresh => exact .cached hkey (List.mem_append_left _ hmem) hanswer hfresh

theorem Accounted.mono (h : Accounted l ttl received task) (r : String × ο × τ) :
    Accounted l ttl (received ++ [r]) task := by
  unfold Accounted at h ⊢
  split at h
  · exact h
  · exact h.mono r
  · exact h

/-! ## The invariant -/

structure Sound (l : Lookup ι ο ν) (ttl : τ) (n : ℕ) (c : Client ι ο ν τ) : Prop where
  store : c.store = (ttlMethods l.miss).run ttl n c.calls
  learned : ∀ key value t, .set key value t ∈ c.calls →
    ∃ outcome, (key, outcome, t) ∈ c.received ∧ l.answer key outcome = .ok (value, true)
  sent : ∀ r ∈ c.sent, ∃ task ∈ c.tasks, ∃ key, l.requestKey task.query = some key ∧ r = (l.url key, task.asked)
  received : ∀ r ∈ c.received, ∃ task ∈ c.tasks, l.requestKey task.query = some r.1
  tasks : ∀ task ∈ c.tasks, Accounted l ttl c.received task

theorem sound_start : Sound l ttl n (.start ttl n) where
  store := rfl
  learned _ _ _ h := nomatch h
  sent _ h := nomatch h
  received _ h := nomatch h
  tasks _ h := nomatch h

namespace Sound

theorem get (h : Sound l ttl n c) (key : String) (now : τ) : Sound l ttl n (c.use l.miss (.get key now)) where
  store := by
    rw [Client.use, Methods.run, List.foldl_concat, h.store]
    rfl
  learned k value t hmem := by
    rcases List.mem_append.mp hmem with hmem | hmem
    · exact h.learned k value t hmem
    · simp at hmem
  sent := h.sent
  received := h.received
  tasks := h.tasks

theorem set (h : Sound l ttl n c) {key : String} {value : ν} {now : τ} {outcome : ο}
    (hmem : (key, outcome, now) ∈ c.received) (hanswer : l.answer key outcome = .ok (value, true)) :
    Sound l ttl n (c.use l.miss (.set key value now)) where
  store := by
    rw [Client.use, Methods.run, List.foldl_concat, h.store]
    rfl
  learned k v t hset := by
    rcases List.mem_append.mp hset with hset | hset
    · exact h.learned k v t hset
    · simp only [List.mem_singleton, Call.set.injEq] at hset
      obtain ⟨rfl, rfl, rfl⟩ := hset
      exact ⟨outcome, hmem, hanswer⟩
  sent := h.sent
  received := h.received
  tasks := h.tasks

theorem enter (h : Sound l ttl n c) {query : ι} {now : τ} {status : Status ν}
    (hstatus : Accounted l ttl c.received ⟨query, now, status⟩) : Sound l ttl n (c.enter query now status) where
  store := h.store
  learned := h.learned
  sent r hr := by
    obtain ⟨task, htask, key, hkey, heq⟩ := h.sent r hr
    exact ⟨task, List.mem_append_left _ htask, key, hkey, heq⟩
  received r hr := by
    obtain ⟨task, htask, hkey⟩ := h.received r hr
    exact ⟨task, List.mem_append_left _ htask, hkey⟩
  tasks task htask := by
    rcases List.mem_append.mp htask with htask | htask
    · exact h.tasks task htask
    · rw [List.mem_singleton.mp htask]
      exact hstatus

theorem send (h : Sound l ttl n c) {key : String} {now : τ} (htask : task ∈ c.tasks)
    (hkey : l.requestKey task.query = some key) (hnow : task.asked = now) :
    Sound l ttl n { c with sent := c.sent ++ [(l.url key, now)] } where
  store := h.store
  learned := h.learned
  sent r hr := by
    rcases List.mem_append.mp hr with hr | hr
    · exact h.sent r hr
    · rw [List.mem_singleton.mp hr, ← hnow]
      exact ⟨task, htask, key, hkey, rfl⟩
  received := h.received
  tasks := h.tasks

theorem receive (h : Sound l ttl n c) {key : String} (outcome : ο) (now : τ) (htask : task ∈ c.tasks)
    (hkey : l.requestKey task.query = some key) :
    Sound l ttl n { c with received := c.received ++ [(key, outcome, now)] } where
  store := h.store
  learned k value t hset := by
    obtain ⟨o, hmem, hanswer⟩ := h.learned k value t hset
    exact ⟨o, List.mem_append_left _ hmem, hanswer⟩
  sent := h.sent
  received r hr := by
    rcases List.mem_append.mp hr with hr | hr
    · exact h.received r hr
    · rw [List.mem_singleton.mp hr]
      exact ⟨task, htask, hkey⟩
  tasks t ht := (h.tasks t ht).mono _

theorem settle (h : Sound l ttl n c) {i : ℕ} {status : Status ν} (hi : c.tasks[i]? = some task)
    (hstatus : Accounted l ttl c.received { task with status }) : Sound l ttl n (c.settle i status) where
  store := h.store
  learned := h.learned
  sent r hr := by
    obtain ⟨t, ht, key, hkey, heq⟩ := h.sent r hr
    obtain ⟨t', ht', hquery, hasked⟩ := keeps_settle status t ht
    exact ⟨t', ht', key, hquery ▸ hkey, hasked ▸ heq⟩
  received r hr := by
    obtain ⟨t, ht, hkey⟩ := h.received r hr
    obtain ⟨t', ht', hquery, -⟩ := keeps_settle status t ht
    exact ⟨t', ht', hquery ▸ hkey⟩
  tasks t ht := by
    rcases mem_settle hi ht with ht | rfl
    · exact h.tasks t ht
    · exact hstatus

end Sound

/-! ## Steps -/

variable {key : String} {now : τ}

/-- What the cache finds was made of a response that is not too old. -/
theorem Sound.found (h : Sound l ttl n c) (hhit : c.store.cache.Hit key now) :
    ∃ outcome t, (key, outcome, t) ∈ c.received ∧ now < t + ttl ∧
      lastSet c.calls key = some ((c.store.cache.getCached l.miss key now).1, t) ∧
        l.answer key outcome = .ok ((c.store.cache.getCached l.miss key now).1, true) := by
  have htracks := tracks_run l.miss ttl n c.calls
  rw [← h.store] at htracks
  obtain ⟨e, he, hlt, hget⟩ := TtlCache.getCached_of_hit l.miss hhit
  obtain ⟨t, hlast, hexp⟩ := htracks.stored key e he
  obtain ⟨outcome, hmem, hanswer⟩ := h.learned key e.1 t (set_mem_of_lastSet hlast)
  rw [hget]
  exact ⟨outcome, t, hmem, hexp ▸ hlt, hlast, hanswer⟩

theorem sound_resume (h : Sound l ttl n c) {i : ℕ} (outcome : ο) (hi : c.tasks[i]? = some task)
    (hwaiting : task.status = .waiting key) (hnow : task.asked ≤ now) :
    Sound l ttl n (l.resume c i key outcome now) := by
  have hmem : task ∈ c.tasks := List.mem_of_getElem? hi
  have hkey : l.requestKey task.query = some key := by
    have htask := h.tasks task hmem
    rw [Accounted, hwaiting] at htask
    exact htask
  have hreceive := h.receive outcome now hmem hkey
  have hnew : (key, outcome, now) ∈ c.received ++ [(key, outcome, now)] :=
    List.mem_append_right _ (List.mem_singleton_self _)
  have hown : Explained l ttl (c.received ++ [(key, outcome, now)]) task.query task.asked
      ((l.answer key outcome).map Prod.fst) := .own hkey hnew hnow
  unfold Lookup.resume
  dsimp only
  split
  · next value hanswer =>
      rw [hanswer] at hown
      exact (hreceive.set hnew hanswer).settle hi hown
  · next value hanswer =>
      rw [hanswer] at hown
      exact hreceive.settle hi hown
  · next e hanswer =>
      rw [hanswer] at hown
      exact hreceive.settle hi hown

variable [DecidableEq ν]

theorem sound_ask (h : Sound l ttl n c) (query : ι) (now : τ) : Sound l ttl n (l.ask c query now) := by
  unfold Lookup.ask
  split
  · next hnone => exact h.enter (.nothing (.inl hnone))
  · next key hkey =>
      have hget := h.get key now
      dsimp only
      split
      · next hne =>
          have hhit : c.store.cache.Hit key now := by
            by_contra hmiss
            exact hne (TtlCache.getCached_of_not_hit l.miss hmiss).1
          obtain ⟨outcome, t, hmem, hfresh, -, hanswer⟩ := h.found hhit
          exact hget.enter (.cached hkey hmem hanswer hfresh)
      · split
        · next hnone => exact hget.enter (.nothing (.inr hnone))
        · next key' hkey' =>
            have hwaiting : Accounted l ttl (c.use l.miss (.get key now)).received ⟨query, now, .waiting key'⟩ := hkey'
            have htask (ts : List (Task ι ν τ)) : ⟨query, now, .waiting key'⟩ ∈ ts ++ [⟨query, now, .waiting key'⟩] :=
              List.mem_append_right _ (List.mem_singleton_self _)
            exact (hget.enter hwaiting).send (htask _) hkey' rfl

theorem sound_step (h : Sound l ttl n c) (e : Event ι ο τ)
    (hnow : ∀ task ∈ c.tasks, ∀ now, e.now? = some now → task.asked ≤ now) : Sound l ttl n (l.step c e) := by
  cases e with
  | ask query now => exact sound_ask h query now
  | reply i outcome now =>
      rw [Lookup.step]
      split
      · next query asked key hi => exact sound_resume h outcome hi rfl (hnow _ (List.mem_of_getElem? hi) now rfl)
      · exact h
  | cancel i =>
      rw [Lookup.step]
      split
      · next hi => exact h.settle hi trivial
      · exact h

/-! ## Clocks -/

theorem asked_step {e : Event ι ο τ} {t : Task ι ν τ} (ht : t ∈ (l.step c e).tasks) :
    (∃ task ∈ c.tasks, task.asked = t.asked) ∨ e.now? = some t.asked := by
  have hold : t ∈ c.tasks → ∃ task ∈ c.tasks, task.asked = t.asked := fun h => ⟨t, h, rfl⟩
  have hsettled : ∀ {c' : Client ι ο ν τ} {i : ℕ} {task : Task ι ν τ} {status : Status ν},
      c'.tasks = c.tasks → c.tasks[i]? = some task → t ∈ (c'.settle i status).tasks →
        ∃ task ∈ c.tasks, task.asked = t.asked := by
    intro c' i task status hc hi hmem
    rw [← hc] at hi ⊢
    rcases mem_settle hi hmem with hmem | rfl
    · exact ⟨t, hmem, rfl⟩
    · exact ⟨task, List.mem_of_getElem? hi, rfl⟩
  cases e with
  | ask query now =>
      have hnew : ∀ {c' : Client ι ο ν τ} {status : Status ν}, c'.tasks = c.tasks →
          t ∈ (c'.enter query now status).tasks → (∃ task ∈ c.tasks, task.asked = t.asked) ∨ some now = some t.asked := by
        intro c' status hc hmem
        rw [Client.enter, hc] at hmem
        rcases List.mem_append.mp hmem with hmem | hmem
        · exact .inl (hold hmem)
        · rw [List.mem_singleton.mp hmem]
          exact .inr rfl
      rw [Lookup.step, Lookup.ask] at ht
      split at ht
      · exact hnew rfl ht
      · dsimp only at ht
        split at ht
        · exact hnew rfl ht
        · split at ht
          · exact hnew rfl ht
          · exact hnew rfl ht
  | reply i outcome now =>
      rw [Lookup.step] at ht
      split at ht
      · next hi =>
          rw [Lookup.resume] at ht
          split at ht
          · exact .inl (hsettled rfl hi ht)
          · exact .inl (hsettled rfl hi ht)
          · exact .inl (hsettled rfl hi ht)
      · exact .inl (hold ht)
  | cancel i =>
      rw [Lookup.step] at ht
      split at ht
      · next hi => exact .inl (hsettled rfl hi ht)
      · exact .inl (hold ht)

theorem calls_step (c : Client ι ο ν τ) (e : Event ι ο τ) :
    (l.step c e).calls = c.calls ∨
      ∃ call, (l.step c e).calls = c.calls ++ [call] ∧ e.now? = some call.now := by
  cases e with
  | ask query now =>
      rw [Lookup.step, Lookup.ask]
      split
      · exact .inl rfl
      · next key hkey =>
          refine .inr ⟨.get key now, ?_, rfl⟩
          dsimp only
          split
          · rfl
          · split
            · rfl
            · rfl
  | reply i outcome now =>
      rw [Lookup.step]
      split
      · next key hi =>
          rw [Lookup.resume]
          split
          · next value hanswer => exact .inr ⟨.set key value now, rfl, rfl⟩
          · exact .inl rfl
          · exact .inl rfl
      · exact .inl rfl
  | cancel i =>
      rw [Lookup.step]
      split
      · exact .inl rfl
      · exact .inl rfl

/-- A run with its clocks. -/
structure Clocked (l : Lookup ι ο ν) (ttl : τ) (n : ℕ) (events : List (Event ι ο τ)) (c : Client ι ο ν τ) : Prop where
  sound : Sound l ttl n c
  asked : ∀ task ∈ c.tasks, task.asked ∈ events.filterMap Event.now?
  called : ∀ call ∈ c.calls, call.now ∈ events.filterMap Event.now?
  ordered : (c.calls.map Call.now).Pairwise (· ≤ ·)

theorem clocked_run (l : Lookup ι ο ν) (ttl : τ) (n : ℕ) {events : List (Event ι ο τ)} (h : InOrder events) :
    Clocked l ttl n events (l.run ttl n events) := by
  induction events using List.reverseRecOn with
  | nil => exact ⟨sound_start, nofun, nofun, List.Pairwise.nil⟩
  | append_singleton events e ih =>
      rw [InOrder, List.filterMap_append, List.pairwise_append] at h
      obtain ⟨hevents, -, hbefore⟩ := h
      have hrun := ih hevents
      have hbefore : ∀ t ∈ events.filterMap Event.now?, ∀ now, e.now? = some now → t ≤ now := fun t ht now hnow =>
        hbefore t ht now (by simp [hnow])
      rw [Lookup.run, List.foldl_concat]
      refine ⟨sound_step hrun.sound e fun task htask => hbefore _ (hrun.asked task htask), ?_, ?_, ?_⟩
      · intro t ht
        rw [List.filterMap_append, List.mem_append]
        rcases asked_step ht with ⟨task, htask, heq⟩ | hnow
        · exact .inl (heq ▸ hrun.asked task htask)
        · exact .inr (by simp [hnow])
      · intro call hcall
        rw [List.filterMap_append, List.mem_append]
        rcases calls_step (l := l) (l.run ttl n events) e with heq | ⟨call', heq, hnow⟩
        · exact .inl (hrun.called call (heq ▸ hcall))
        · rcases List.mem_append.mp (heq ▸ hcall) with hcall | hcall
          · exact .inl (hrun.called call hcall)
          · rw [List.mem_singleton.mp hcall]
            exact .inr (by simp [hnow])
      · rcases calls_step (l := l) (l.run ttl n events) e with heq | ⟨call', heq, hnow⟩
        · exact heq ▸ hrun.ordered
        · have hlast : ∀ call ∈ (l.run ttl n events).calls, call.now ≤ call'.now := fun call hcall =>
            hbefore _ (hrun.called call hcall) _ hnow
          rw [Lookup.run] at heq hlast
          rw [heq, List.map_append, List.pairwise_append]
          refine ⟨hrun.ordered, List.pairwise_singleton _ _, ?_⟩
          intro t ht t' ht'
          obtain ⟨call, hcall, rfl⟩ := List.mem_map.mp ht
          rw [List.map_singleton, List.mem_singleton] at ht'
          exact ht' ▸ hlast call hcall

end NeuralSoc.Caches
