import NeuralSoc.Caches.Lemmas.Lookups
import NeuralSoc.Playbooks.TotalTheorems
import NeuralSoc.Schemas.Theorems

/-! # What lookups send and answer -/

namespace NeuralSoc.Caches

open Shell Lru

variable {ι ο ν τ : Type*} [LinearOrder τ] [Add τ]

/-! ## Requests -/

section

variable {l : Lookup ι ο ν} {ttl : τ} {n : ℕ} {c : Client ι ο ν τ}

/-- Nothing that is stored reads as a miss. -/
def Tells (l : Lookup ι ο ν) : Prop := ∀ key outcome value, l.answer key outcome = .ok (value, true) → value ≠ l.miss

theorem getCached_eq_miss (hl : Tells l) (h : Sound l ttl n c) (key : String) (now : τ) :
    (c.store.cache.getCached l.miss key now).1 = l.miss ↔ ¬ c.store.cache.Hit key now := by
  constructor
  · intro hmiss hhit
    obtain ⟨outcome, t, -, -, -, hanswer⟩ := h.found hhit
    exact hl key outcome _ hanswer hmiss
  · intro hmiss
    exact (TtlCache.getCached_of_not_hit l.miss hmiss).1

/-- A key that was stored less than the time to live before and is not found has been pushed out. -/
theorem Clocked.pushed_out {events : List (Event ι ο τ)} (h : Clocked l ttl n events c) {key : String} {now : τ}
    (hnow : ∀ t ∈ events.filterMap Event.now?, t ≤ now) (hmiss : ¬ c.store.cache.Hit key now) {value : ν} {t : τ}
    (hlast : lastSet c.calls key = some (value, t)) (hfresh : now < t + ttl) :
    n ≤ (others c.store.used key).card := by
  have htimed : Timed c.calls now := by
    refine List.pairwise_append.mpr ⟨h.ordered, List.pairwise_singleton _ _, ?_⟩
    intro t ht t' ht'
    obtain ⟨call, hcall, rfl⟩ := List.mem_map.mp ht
    rw [List.mem_singleton.mp ht']
    exact hnow _ (h.called call hcall)
  have hlru := isLru_ttlMethods l.miss ttl n htimed
  rw [h.sound.store] at hmiss ⊢
  exact hlru.kept key value t hlast hfresh hmiss

variable [DecidableEq ν]

theorem sent_of_hit (hl : Tells l) (h : Sound l ttl n c) {query : ι} {key : String} {now : τ}
    (hkey : l.cacheKey query = some key) (hhit : c.store.cache.Hit key now) :
    (l.ask c query now).sent = c.sent := by
  have hne : (c.store.cache.getCached l.miss key now).1 ≠ l.miss := fun heq =>
    (getCached_eq_miss hl h key now).mp heq hhit
  simp only [Lookup.ask, hkey, ne_eq, hne, not_false_eq_true, ↓reduceIte]
  rfl

theorem sent_of_miss (hl : Tells l) (h : Sound l ttl n c) {query : ι} {key key' : String} {now : τ}
    (hkey : l.cacheKey query = some key) (hkey' : l.requestKey query = some key')
    (hmiss : ¬ c.store.cache.Hit key now) : (l.ask c query now).sent = c.sent ++ [(l.url key', now)] := by
  have heq := (getCached_eq_miss hl h key now).mpr hmiss
  simp only [Lookup.ask, hkey, ne_eq, heq, not_true_eq_false, ↓reduceIte, hkey']
  rfl

end

/-! ## Ages of domains -/

/-- A segment of a path, which neither begins another one nor a query or a fragment. -/
def IsSegment (text : String) : Prop := ∀ c ∈ text.toList, c ≠ '/' ∧ c ≠ '?' ∧ c ≠ '#'

namespace AgeRuntime

variable (rt : AgeRuntime)

theorem isSegment_quote (text : String) : IsSegment (quote text) := by
  have hhex : ∀ k < 16, upperHex k ≠ '/' ∧ upperHex k ≠ '?' ∧ upperHex k ≠ '#' := by decide
  have hbyte : ∀ (byte : UInt8), ∀ c ∈ escapeByte byte, c ≠ '/' ∧ c ≠ '?' ∧ c ≠ '#' := by
    intro byte c hc
    have hlt : byte.toNat < 256 := byte.toNat_lt
    simp only [escapeByte, List.mem_cons, List.not_mem_nil, or_false] at hc
    rcases hc with rfl | rfl | rfl
    · decide
    · exact hhex _ (Nat.div_lt_of_lt_mul hlt)
    · exact hhex _ (Nat.mod_lt _ (by decide))
  intro c hc
  rw [quote, String.toList_ofList, List.mem_flatMap] at hc
  obtain ⟨x, -, hx⟩ := hc
  split at hx
  · next hplain =>
      rw [List.mem_singleton] at hx
      subst hx
      refine ⟨?_, ?_, ?_⟩
      · rintro rfl
        exact absurd hplain (by decide)
      · rintro rfl
        exact absurd hplain (by decide)
      · rintro rfl
        exact absurd hplain (by decide)
  · obtain ⟨byte, -, hmem⟩ := List.mem_flatMap.mp hx
    exact hbyte byte c hmem

/-- An age that is known is a number. -/
theorem parseAgeDays_ne_str (eventDate : Json) (now : ℤ) (s : String) : rt.parseAgeDays eventDate now ≠ .str s := by
  unfold parseAgeDays
  split
  · split
    · simp
    · split
      · simp
      · simp
  · simp

theorem fetchAgeDays_ne_str (reply : Reply) (now : ℤ) (s : String) : rt.fetchAgeDays reply now ≠ .str s := by
  have hregistration : ∀ (e value : Json), rt.registration now e = some value → value ≠ .str s := by
    intro e value h
    unfold registration at h
    split at h
    · split at h
      · rw [← Option.some.inj h]
        exact rt.parseAgeDays_ne_str _ now s
      · cases h
    · cases h
  cases reply with
  | raised => simp [fetchAgeDays]
  | response status length json =>
      unfold fetchAgeDays
      dsimp only
      split
      · simp
      · split
        · simp
        · split
          · split
            · next events _ =>
                cases hfind : events.findSome? (rt.registration now) with
                | none => simp
                | some value =>
                    obtain ⟨e, -, he⟩ := List.exists_of_findSome?_eq_some hfind
                    simpa using hregistration e value he
            · simp
          · simp

theorem tells_lookupAgeDays : Tells rt.lookupAgeDays := by
  intro domain outcome value h
  simp only [lookupAgeDays, Except.ok.injEq, Prod.mk.injEq, and_true] at h
  rw [← h]
  exact rt.fetchAgeDays_ne_str _ _ _

end AgeRuntime

/-- Ages of domains, whatever lookups run at a time: the first request of a lookup is for the registrable domain of its
query; an answer is what came back for that domain, after the question or no longer than the time to live before; and
one asks again when nothing was stored for so long or the entry has been pushed out. -/
theorem domain_ages_are_fresh (rt : AgeRuntime) (ttl : τ) (n : ℕ) (events : List (Event Text (Reply × ℤ) τ))
    (horder : InOrder events) :
    let c := rt.lookupAgeDays.run ttl n events
    (∀ r ∈ c.sent, ∃ task ∈ c.tasks, ∃ domain, rt.registrable task.query = some domain ∧ task.asked = r.2 ∧
        r.1 = "https://rdap.org/domain/" ++ AgeRuntime.quote domain ∧ IsSegment (AgeRuntime.quote domain)) ∧
      (∀ task ∈ c.tasks, ∀ answer, task.status = .finished answer →
        rt.registrable task.query = none ∧ answer = .ok .null ∨
          ∃ domain outcome t, rt.registrable task.query = some domain ∧ (domain, outcome, t) ∈ c.received ∧
            answer = .ok (rt.fetchAgeDays outcome.1 outcome.2) ∧ (task.asked ≤ t ∨ task.asked < t + ttl)) ∧
      ∀ query domain now, rt.registrable query = some domain → (∀ t ∈ events.filterMap Event.now?, t ≤ now) →
        ((rt.lookupAgeDays.ask c query now).sent = c.sent ∧
            ∃ value t, lastSet c.calls domain = some (value, t) ∧ now < t + ttl) ∨
          (rt.lookupAgeDays.ask c query now).sent = c.sent ++ [(AgeRuntime.rdapUrl domain, now)] ∧
            ∀ value t, lastSet c.calls domain = some (value, t) → now < t + ttl →
              n ≤ (others c.store.used domain).card := by
  intro c
  have hclocked := clocked_run rt.lookupAgeDays ttl n horder
  refine ⟨?_, ?_, ?_⟩
  · intro r hr
    obtain ⟨task, htask, domain, hdomain, rfl⟩ := hclocked.sound.sent r hr
    exact ⟨task, htask, domain, hdomain, rfl, rfl, AgeRuntime.isSegment_quote domain⟩
  · intro task htask answer hanswer
    have haccount := hclocked.sound.tasks task htask
    rw [Accounted, hanswer] at haccount
    cases haccount with
    | nothing h => exact .inl ⟨or_self_iff.mp h, rfl⟩
    | own hkey hmem hafter => exact .inr ⟨_, _, _, hkey, hmem, rfl, .inl hafter⟩
    | cached hkey hmem hvalue hfresh =>
        have hvalue : rt.fetchAgeDays _ _ = _ := (Prod.mk.inj (Except.ok.inj hvalue)).1
        exact .inr ⟨_, _, _, hkey, hmem, by rw [hvalue], .inr hfresh⟩
  · intro query domain now hdomain hnow
    by_cases hhit : c.store.cache.Hit domain now
    · obtain ⟨-, t, -, hfresh, hlast, -⟩ := hclocked.sound.found hhit
      exact .inl ⟨sent_of_hit rt.tells_lookupAgeDays hclocked.sound hdomain hhit, _, t, hlast, hfresh⟩
    · exact .inr ⟨sent_of_miss rt.tells_lookupAgeDays hclocked.sound hdomain hdomain hhit,
        fun value t hlast hfresh => hclocked.pushed_out hnow hhit hlast hfresh⟩

def plainAges : AgeRuntime := ⟨Dga.asciiLower, fun text => if text = "1970-01-01" then some ⟨0, none⟩ else none⟩

def registered : Json :=
  .obj [("events", .arr [.obj [("eventAction", .str "registration"), ("eventDate", .str "1970-01-01")]])]

/-- Two names of one domain at a time, and the domain again when the first response is there. -/
def mailAndWeb : List (Event Text (Reply × ℤ) ℕ) :=
  [.ask (points "mail.A.com.") 0, .ask (points "www.a.com") 1, .reply 0 (.response 200 90 (some registered), 0) 2,
    .ask (points "a.com") 3, .cancel 1]

theorem domain_ages_are_fresh_mailAndWeb :
    let c := plainAges.lookupAgeDays.run 10 2 mailAndWeb
    c.sent = [("https://rdap.org/domain/a.com", 0), ("https://rdap.org/domain/a.com", 1)] ∧
      ∀ task ∈ c.tasks, ∀ answer, task.status = .finished answer →
        plainAges.registrable task.query = none ∧ answer = .ok .null ∨
          ∃ domain outcome t, plainAges.registrable task.query = some domain ∧ (domain, outcome, t) ∈ c.received ∧
            answer = .ok (plainAges.fetchAgeDays outcome.1 outcome.2) ∧ (task.asked ≤ t ∨ task.asked < t + 10) :=
  ⟨by decide +kernel, (domain_ages_are_fresh plainAges 10 2 mailAndWeb (by unfold InOrder; decide)).2.1⟩

/-! ## Threat intelligence -/

namespace IntelRuntime

variable (rt : IntelRuntime)

theorem isSpace_text (addr : Ipv4) : ∀ c ∈ addr.text.toList, isSpace c = false := by
  have hdigits : ∀ k : Fin 10, isSpace (Nat.digitChar k) = false := by decide
  intro c hc
  rcases Ipv4.mem_text hc with hdigit | rfl
  · obtain ⟨k, rfl⟩ := Ipv4.isDigit_iff.mp hdigit
    exact hdigits k
  · decide

theorem encodable_text (addr : Ipv4) : Playbooks.encodable (points addr.text) = true := by
  have hdigits : ∀ k : Fin 10, Playbooks.encodable [(Nat.digitChar k).toNat] = true := by decide
  rw [Playbooks.encodable, List.all_eq_true]
  intro c hc
  obtain ⟨ch, hch, rfl⟩ := List.mem_map.mp hc
  rcases Ipv4.mem_text hch with hdigit | rfl
  · obtain ⟨k, rfl⟩ := Ipv4.isDigit_iff.mp hdigit
    simpa [Playbooks.encodable] using hdigits k
  · decide

theorem requestKey_fetchIntel (ip : String) : rt.fetchIntel.requestKey ip = rt.cleanIp ip := by rw [fetchIntel]

theorem cleanIp_eq_some {ip key : String} :
    rt.cleanIp ip = some key ↔ ∃ addr : Ipv4, strip ip = addr.text ∧ rt.isRefused addr = false ∧ key = addr.text := by
  unfold cleanIp
  cases haddr : Ipv4.ofString (strip ip) with
  | none =>
      simp only [reduceCtorEq, false_iff, not_exists]
      rintro addr ⟨htext, -⟩
      rw [Ipv4.ofString_eq_some.mpr htext] at haddr
      cases haddr
  | some addr =>
      have htext := Ipv4.ofString_eq_some.mp haddr
      constructor
      · intro h
        dsimp only at h
        split at h
        · cases h
        · next hrefused => exact ⟨addr, htext, Bool.eq_false_of_not_eq_true hrefused, (Option.some.inj h).symm⟩
      · rintro ⟨addr', htext', hrefused, rfl⟩
        have heq : addr = addr' := Option.some.inj (haddr.symm.trans (Ipv4.ofString_eq_some.mpr htext'))
        simp [heq, hrefused]

theorem adaptedData_text (addr : Ipv4) : ∃ intel, rt.adaptedData addr.text = .ok (adapt intel) := by
  obtain ⟨intel, hintel⟩ := (Playbooks.exists_enrichIpIntel rt.toPlaybookRuntime (points addr.text)).mpr
    fun h => Bool.false_ne_true (h.2.2.symm.trans (encodable_text addr))
  refine ⟨intel, ?_⟩
  rw [adaptedData, hintel]
  rfl

end IntelRuntime

def Reply.TooLong (reply : Reply) : Prop := ∃ status length json, reply = .response status length json ∧ 65536 < length

/-- The content is a dict that names the address. -/
def Reply.Describes (reply : Reply) (address : String) (data : Object) : Prop :=
  ∃ status length, reply = .response status length (some (.obj data)) ∧ Object.get data "ip" = .str address

namespace IntelRuntime

variable (rt : IntelRuntime)

/-- What is made of a response: nothing that is kept, the data of the address, or the offline data. -/
theorem fetchIntelReply_cases (key : String) (reply : Reply) :
    (rt.fetchIntelReply key reply = .ok ([], false) ∧ reply.TooLong) ∨
      (∃ data, rt.fetchIntelReply key reply = .ok (data, true) ∧ data ≠ [] ∧ reply.Describes key data) ∨
        rt.fetchIntelReply key reply = do return (← rt.adaptedData key, true) := by
  unfold fetchIntelReply
  dsimp only
  split
  · exact .inr (.inr rfl)
  · next status length json =>
      split
      · exact .inr (.inr rfl)
      · split
        · next hlong => exact .inl ⟨rfl, _, _, _, rfl, hlong⟩
        · split
          · next data =>
              split
              · next haccepted =>
                  simp only [accepted, Bool.and_eq_true, Bool.not_eq_true', beq_iff_eq] at haccepted
                  exact .inr (.inl ⟨data, rfl, by simpa using haccepted.1.1, _, _, rfl, haccepted.2⟩)
              · exact .inr (.inr rfl)
          · exact .inr (.inr rfl)

theorem tells_fetchIntel : Tells rt.fetchIntel := by
  intro key reply value h
  change rt.fetchIntelReply key reply = .ok (value, true) at h
  change value ≠ []
  rcases rt.fetchIntelReply_cases key reply with ⟨heq, -⟩ | ⟨data, heq, hne, -⟩ | heq
  · rw [heq] at h
    cases h
  · rw [heq] at h
    cases h
    exact hne
  · rw [heq, adaptedData] at h
    cases hintel : Playbooks.enrichIpIntel rt.toPlaybookRuntime (points key) with
    | error e =>
        rw [hintel] at h
        cases h
    | ok intel =>
        rw [hintel] at h
        cases h
        exact List.cons_ne_nil _ _

/-- The answer to what came of a request for an address. -/
theorem fetchIntelReply_text (addr : Ipv4) (reply : Reply) :
    ∃ data, (rt.fetchIntelReply addr.text reply).map Prod.fst = .ok data ∧
      (data = [] ∧ reply.TooLong ∨ reply.Describes addr.text data ∨ rt.adaptedData addr.text = .ok data) := by
  rcases rt.fetchIntelReply_cases addr.text reply with ⟨heq, hlong⟩ | ⟨data, heq, -, hdescribes⟩ | heq
  · exact ⟨[], by rw [heq]; rfl, .inl ⟨rfl, hlong⟩⟩
  · exact ⟨data, by rw [heq]; rfl, .inr (.inl hdescribes)⟩
  · obtain ⟨intel, hintel⟩ := rt.adaptedData_text addr
    exact ⟨adapt intel, by rw [heq, hintel]; rfl, .inr (.inr hintel)⟩

/-- The cache finds something only for an address, written as it is asked for. -/
theorem clean_of_received {ttl : τ} {n : ℕ} {c : Client String Reply Object τ} (h : Sound rt.fetchIntel ttl n c)
    {key : String} {reply : Reply} {t : τ} (hmem : (key, reply, t) ∈ c.received) :
    ∃ addr : Ipv4, strip key = addr.text ∧ rt.isRefused addr = false ∧ key = addr.text := by
  obtain ⟨task, -, hkey⟩ := h.received _ hmem
  rw [requestKey_fetchIntel] at hkey
  obtain ⟨addr, -, hrefused, rfl⟩ := rt.cleanIp_eq_some.mp hkey
  exact ⟨addr, Schemas.strip_of_no_space (isSpace_text addr), hrefused, rfl⟩

end IntelRuntime

/-- Threat intelligence, whatever lookups run at a time: a request names a public address, and only that; an answer
is empty or about the address of the lookup. The cache is asked for the text as it came, so only the address itself is
found there. -/
theorem intel_stays_public (rt : IntelRuntime) (ttl : τ) (n : ℕ) (events : List (Event String Reply τ))
    (horder : InOrder events) :
    let c := rt.fetchIntel.run ttl n events
    (∀ r ∈ c.sent, ∃ task ∈ c.tasks, ∃ addr : Ipv4, strip task.query = addr.text ∧ rt.isRefused addr = false ∧
        task.asked = r.2 ∧ r.1 = "https://ipwho.is/" ++ addr.text) ∧
      (∀ task ∈ c.tasks, ∀ answer, task.status = .finished answer →
        rt.cleanIp task.query = none ∧ answer = .ok [] ∨
          ∃ (addr : Ipv4) (reply : Reply) (t : τ) (data : Object), strip task.query = addr.text ∧
            rt.isRefused addr = false ∧ (addr.text, reply, t) ∈ c.received ∧
            (task.asked ≤ t ∨ task.asked < t + ttl) ∧ answer = .ok data ∧
            (data = [] ∧ reply.TooLong ∨ reply.Describes addr.text data ∨ rt.adaptedData addr.text = .ok data)) ∧
      ∀ query (addr : Ipv4) now, strip query = addr.text → rt.isRefused addr = false →
        (∀ t ∈ events.filterMap Event.now?, t ≤ now) →
        ((rt.fetchIntel.ask c query now).sent = c.sent ∧ query = addr.text ∧
            ∃ value t, lastSet c.calls addr.text = some (value, t) ∧ now < t + ttl) ∨
          (rt.fetchIntel.ask c query now).sent = c.sent ++ [("https://ipwho.is/" ++ addr.text, now)] ∧
            (query = addr.text → ∀ value t, lastSet c.calls addr.text = some (value, t) → now < t + ttl →
              n ≤ (others c.store.used addr.text).card) := by
  intro c
  have hclocked := clocked_run rt.fetchIntel ttl n horder
  have hsound := hclocked.sound
  refine ⟨?_, ?_, ?_⟩
  · intro r hr
    obtain ⟨task, htask, key, hkey, rfl⟩ := hsound.sent r hr
    rw [rt.requestKey_fetchIntel] at hkey
    obtain ⟨addr, htext, hrefused, rfl⟩ := rt.cleanIp_eq_some.mp hkey
    exact ⟨task, htask, addr, htext, hrefused, rfl, rfl⟩
  · intro task htask answer hanswer
    have haccount := hsound.tasks task htask
    rw [Accounted, hanswer] at haccount
    cases haccount with
    | nothing h =>
        rw [rt.requestKey_fetchIntel] at h
        exact .inl ⟨h.resolve_left (Option.some_ne_none _), rfl⟩
    | own hkey hmem hafter =>
        rw [rt.requestKey_fetchIntel] at hkey
        obtain ⟨addr, htext, hrefused, rfl⟩ := rt.cleanIp_eq_some.mp hkey
        obtain ⟨data, hdata, habout⟩ := rt.fetchIntelReply_text addr _
        exact .inr ⟨addr, _, _, data, htext, hrefused, hmem, .inl hafter, hdata, habout⟩
    | cached hkey hmem hvalue hfresh =>
        obtain ⟨addr, htext, hrefused, heq⟩ := rt.clean_of_received hsound hmem
        have hquery : task.query = addr.text := (Option.some.inj hkey).trans heq
        rw [heq] at hmem hvalue htext
        obtain ⟨data, hdata, habout⟩ := rt.fetchIntelReply_text addr _
        have hdata : (rt.fetchIntel.answer addr.text _).map Prod.fst = _ := hdata
        rw [hvalue] at hdata
        rw [hquery]
        exact .inr ⟨addr, _, _, data, htext, hrefused, hmem, .inr hfresh, hdata, habout⟩
  · intro query addr now htext hrefused hnow
    have hrequest : rt.fetchIntel.requestKey query = some addr.text := by
      rw [rt.requestKey_fetchIntel]
      exact rt.cleanIp_eq_some.mpr ⟨addr, htext, hrefused, rfl⟩
    by_cases hhit : c.store.cache.Hit query now
    · obtain ⟨reply, t, hmem, hfresh, hlast, -⟩ := hsound.found hhit
      obtain ⟨addr', htext', -, hquery⟩ := rt.clean_of_received hsound hmem
      have heq : query = addr.text := hquery.trans (htext'.symm.trans htext)
      rw [heq] at hlast
      exact .inl ⟨sent_of_hit rt.tells_fetchIntel hsound rfl hhit, heq, _, t, hlast, hfresh⟩
    · refine .inr ⟨sent_of_miss rt.tells_fetchIntel hsound rfl hrequest hhit, ?_⟩
      rintro rfl value t hlast hfresh
      exact hclocked.pushed_out hnow hhit hlast hfresh

def plainIntel : IntelRuntime where
  toPlaybookRuntime := { Playbooks.plainPlaybookRuntime with isInternal := fun text => some (text == points "10.0.0.5") }
  isPrivate addr := addr.a.val == 10

def aboutEights : Object := [("success", .bool true), ("ip", .str "8.8.8.8"), ("country", .str "United States")]

/-- An address as it is asked for, with a blank before it, and one of the internal network. -/
def threeTexts : List (Event String Reply ℕ) :=
  [.ask "8.8.8.8" 0, .ask " 8.8.8.8" 1, .ask "10.0.0.5" 2, .reply 0 (.response 200 80 (some (.obj aboutEights))) 3,
    .ask "8.8.8.8" 4, .cancel 1]

theorem intel_stays_public_threeTexts :
    let c := plainIntel.fetchIntel.run 10 2 threeTexts
    c.sent = [("https://ipwho.is/8.8.8.8", 0), ("https://ipwho.is/8.8.8.8", 1)] ∧
      ∀ r ∈ c.sent, ∃ task ∈ c.tasks, ∃ addr : Ipv4, strip task.query = addr.text ∧
        plainIntel.isRefused addr = false ∧ task.asked = r.2 ∧ r.1 = "https://ipwho.is/" ++ addr.text :=
  ⟨by decide +kernel, (intel_stays_public plainIntel 10 2 threeTexts (by unfold InOrder; decide)).1⟩

end NeuralSoc.Caches
