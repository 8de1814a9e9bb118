/-
  WHAT AN ACCEPTED STORE HOLDS.

  `fromConfig` builds both indexes in one pass.  `Consumers.lean` says when the pass goes through:
  no key may come twice.  Here the keys are read back:

  * in terms of the declarations, the keys of a list are distinct exactly when the names are and
    no two consumers declare the same (auth type, value) pair (`nodup_keys_iff`);
  * after the pass, a lookup finds the last consumer entered under the pair
    (`findByCredential_addConsumer`); since a pair is never entered twice, that is the only
    consumer that declares it (`findByCredential_iff`).  An insert that replaces another makes
    the pass fail, so none survives into a store.
-/
import Featherbit.Consumers

namespace Featherbit

/-- The consumer declares a credential of this auth type with this primary value. -/
def ConsumerConfig.Declares (config : ConsumerConfig) (authType value : String) : Prop :=
  ∃ credential, config.credentials[authType]? = some credential ∧
    primaryCredential authType credential = some value

namespace ConsumerStore

theorem mem_credentialKeys {config : ConsumerConfig} {authType value : String} :
    (authType, value) ∈ config.credentials.toList.flatMap credentialKey ↔
      config.Declares authType value := by
  rw [List.mem_flatMap]
  constructor
  · rintro ⟨⟨t, credential⟩, hmem, hkey⟩
    simp only [credentialKey, Option.mem_toList, Option.map_eq_some_iff, Prod.mk.injEq] at hkey
    obtain ⟨v, hv, rfl, rfl⟩ := hkey
    exact ⟨credential, Std.ExtTreeMap.mem_toList_iff_getElem?_eq_some.mp hmem, hv⟩
  · rintro ⟨credential, hget, hvalue⟩
    refine ⟨(authType, credential), Std.ExtTreeMap.mem_toList_iff_getElem?_eq_some.mpr hget, ?_⟩
    simp [credentialKey, hvalue]

/-! ## When the keys are distinct -/

/-- The auth types of one consumer differ, so its pairs do. -/
theorem nodup_credentialKeys (config : ConsumerConfig) :
    (config.credentials.toList.flatMap credentialKey).Nodup := by
  have hdistinct : config.credentials.toList.Pairwise fun a b => a.1 ≠ b.1 :=
    config.credentials.distinct_keys_toList.imp fun h heq => h (Std.compare_eq_iff_eq.mpr heq)
  rw [List.nodup_flatMap]
  constructor
  · intro entry _
    rw [credentialKey]
    cases primaryCredential entry.1 entry.2 <;> simp
  · refine hdistinct.imp fun {a b} hne k ha hb => ?_
    simp only [credentialKey, Option.mem_toList, Option.map_eq_some_iff] at ha hb
    obtain ⟨_, -, rfl⟩ := ha
    obtain ⟨_, -, hkey⟩ := hb
    exact hne (Prod.mk.inj hkey).1.symm

/-- No pair is declared by both. -/
def NoSharedCredential (a b : ConsumerConfig) : Prop :=
  ∀ authType value, a.Declares authType value → ¬ b.Declares authType value

theorem disjoint_keys_iff {a b : ConsumerConfig} :
    List.Disjoint (keys a) (keys b) ↔ a.name ≠ b.name ∧ NoSharedCredential a b := by
  constructor
  · intro h
    refine ⟨fun heq => ?_, fun authType value ha hb => ?_⟩
    · exact h (List.mem_cons_self) (heq ▸ List.mem_cons_self)
    · have hmem : ∀ {c : ConsumerConfig}, c.Declares authType value →
          Sum.inr (authType, value) ∈ keys c := fun hc =>
        List.mem_cons_of_mem _ (List.mem_map_of_mem (mem_credentialKeys.mpr hc))
      exact h (hmem ha) (hmem hb)
  · rintro ⟨hname, hshared⟩ k ha hb
    cases k with
    | inl name =>
      simp only [keys, List.mem_cons, Sum.inl.injEq, List.mem_map, reduceCtorEq, and_false,
        exists_false, or_false] at ha hb
      exact hname (ha.symm.trans hb)
    | inr pair =>
      simp only [keys, List.mem_cons, reduceCtorEq, false_or, List.mem_map, Sum.inr.injEq,
        exists_eq_right] at ha hb
      exact hshared pair.1 pair.2 (mem_credentialKeys.mp ha) (mem_credentialKeys.mp hb)

theorem nodup_keys_iff {consumers : List ConsumerConfig} :
    (consumers.flatMap keys).Nodup ↔
      (consumers.map (·.name)).Nodup ∧ consumers.Pairwise NoSharedCredential := by
  have hkeys : ∀ c ∈ consumers, (keys c).Nodup := by
    intro c _
    rw [keys, List.nodup_cons, List.nodup_map_iff Sum.inr_injective]
    exact ⟨by simp, nodup_credentialKeys c⟩
  rw [List.nodup_flatMap, and_iff_right hkeys, List.Nodup, List.pairwise_map,
    ← List.pairwise_and_iff]
  exact ⟨fun h => h.imp fun hab => disjoint_keys_iff.mp hab,
    fun h => h.imp fun hab => disjoint_keys_iff.mpr hab⟩

/-! ## What a lookup finds -/

theorem findByCredential_insert (store : ConsumerStore) (consumer : Consumer)
    (authType value t v : String) :
    findByCredential
        { store with
          byCredential := store.byCredential.insert authType
            ((store.byCredential.getD authType ∅).insert value consumer) } t v =
      if (t, v) = (authType, value) then some consumer else store.findByCredential t v := by
  unfold findByCredential
  rw [HashMap.get_insert]
  by_cases ht : t = authType
  · subst ht
    rw [if_pos rfl, Option.bind_some, HashMap.get_insert, Std.ExtTreeMap.getD_eq_getD_getElem?]
    by_cases hv : v = value
    · rw [if_pos hv, if_pos (by rw [hv])]
    · rw [if_neg hv, if_neg (fun h => hv (Prod.mk.inj h).2)]
      cases store.byCredential[t]? <;> simp
  · rw [if_neg ht, if_neg (fun h => ht (Prod.mk.inj h).1)]

/-- The credentials of one consumer. -/
theorem findByCredential_foldlM (consumer : Consumer) (t v : String) :
    ∀ {entries : List (String × Json)} {store store' : ConsumerStore},
      entries.foldlM (addCredential consumer) store = .ok store' →
      store'.findByCredential t v =
        if (t, v) ∈ entries.flatMap credentialKey then some consumer
        else store.findByCredential t v := by
  intro entries
  induction entries with
  | nil =>
    intro store store' h
    obtain rfl := Except.ok.inj h
    simp
  | cons entry entries ih =>
    intro store store' h
    rw [List.foldlM_cons] at h
    obtain ⟨store1, he, hrest⟩ := TryFold.bind_eq_ok.mp h
    obtain ⟨value, hvalue, -, rfl⟩ := addCredential_ok he
    have hkey : credentialKey entry = [(entry.1, value)] := by simp [credentialKey, hvalue]
    rw [ih hrest, findByCredential_insert, List.flatMap_cons, hkey]
    by_cases hmem : (t, v) ∈ entries.flatMap credentialKey
    · rw [if_pos hmem, if_pos (List.mem_append_right _ hmem)]
    · rw [if_neg hmem]
      simp only [List.singleton_append, List.mem_cons, hmem, or_false]

open Classical in
/-- One consumer: what it declares is its own from now on, the rest is as before. -/
theorem findByCredential_addConsumer {store store' : ConsumerStore} {config : ConsumerConfig}
    (h : addConsumer store config = .ok store') (t v : String) :
    store'.findByCredential t v =
      if config.Declares t v then some (Consumer.ofConfig config)
      else store.findByCredential t v := by
  unfold addConsumer at h
  split at h
  · cases h
  · dsimp only at h
    split at h
    · cases h
    · rw [findByCredential_foldlM _ t v h]
      by_cases hdecl : config.Declares t v
      · rw [if_pos hdecl, if_pos (mem_credentialKeys.mpr hdecl)]
      · rw [if_neg hdecl, if_neg (fun hmem => hdecl (mem_credentialKeys.mp hmem))]
        rfl

/-- Induction from the end of the list: the last consumer's pairs are new, so what was found
    before stays. -/
theorem findByCredential_iff {t v : String} :
    ∀ {consumers : List ConsumerConfig} {store : ConsumerStore},
      fromConfig consumers = .ok store → ∀ c,
      (store.findByCredential t v = some c ↔
        ∃ config ∈ consumers, Consumer.ofConfig config = c ∧ config.Declares t v) := by
  intro consumers
  induction consumers using List.reverseRecOn with
  | nil =>
    intro store h c
    obtain rfl := Except.ok.inj h
    simp [findByCredential]
  | append_singleton consumers config ih =>
    intro store h c
    obtain ⟨store0, h0, hlast⟩ := TryFold.foldlM_concat_eq_ok.mp h
    rw [findByCredential_addConsumer hlast]
    by_cases hdecl : config.Declares t v
    · -- nobody before declared the pair, or the store would have held it
      have hfresh : ∀ config' ∈ consumers, ¬ config'.Declares t v := by
        intro config' hmem hdecl'
        have hheld : store0.HasCredential (t, v) := by
          rw [HasCredential, (ih h0 _).mpr ⟨config', hmem, rfl, hdecl'⟩]
          rfl
        obtain ⟨-, -, hnew⟩ := (addConsumer_inserts.ok_iff store0 config).mp ⟨store, hlast⟩
        refine hnew (.inr (t, v)) ?_ hheld
        exact List.mem_cons_of_mem _ (List.mem_map_of_mem (mem_credentialKeys.mpr hdecl))
      rw [if_pos hdecl, Option.some.injEq]
      constructor
      · intro hc
        exact ⟨config, List.mem_append_right _ (List.mem_singleton.mpr rfl), hc, hdecl⟩
      · rintro ⟨config', hmem, rfl, hdecl'⟩
        rcases List.mem_append.mp hmem with hmem | hmem
        · exact absurd hdecl' (hfresh config' hmem)
        · rw [List.mem_singleton.mp hmem]
    · rw [if_neg hdecl, ih h0]
      constructor
      · rintro ⟨config', hmem, hc, hdecl'⟩
        exact ⟨config', List.mem_append_left _ hmem, hc, hdecl'⟩
      · rintro ⟨config', hmem, hc, hdecl'⟩
        rcases List.mem_append.mp hmem with hmem | hmem
        · exact ⟨config', hmem, hc, hdecl'⟩
        · rw [List.mem_singleton.mp hmem] at hdecl'
          exact absurd hdecl' hdecl

/-- **Acceptance and contents.**  A list of consumers is accepted iff the names are not blank and
    pairwise distinct, every credential has its primary field as a text, and no two credentials
    share an auth type and a primary value; and an accepted store finds, for each auth type and
    value, exactly the consumer that declared them. -/
theorem fromConfig_spec (consumers : List ConsumerConfig) :
    ((∃ store, fromConfig consumers = .ok store) ↔
      (∀ config ∈ consumers, trim config.name ≠ "") ∧
      (consumers.map (·.name)).Nodup ∧
      (∀ config ∈ consumers, ∀ (authType : String) (credential : Json),
        config.credentials[authType]? = some credential →
        ∃ value, credential.get (primaryCredentialField authType) = some (.string value)) ∧
      consumers.Pairwise NoSharedCredential) ∧
    ∀ store, fromConfig consumers = .ok store → ∀ authType value consumer,
      store.findByCredential authType value = some consumer ↔
        ∃ config ∈ consumers, Consumer.ofConfig config = consumer ∧
          config.Declares authType value := by
  refine ⟨?_, fun store h authType value => findByCredential_iff h⟩
  have hprimary : ∀ (authType : String) (credential : Json), (primaryCredential authType credential).isSome ↔
      ∃ value, credential.get (primaryCredentialField authType) = some (.string value) := by
    intro authType credential
    unfold primaryCredential
    rcases credential.get (primaryCredentialField authType) with - | value
    · simp
    · cases value <;> simp [Json.asStr]
  have hempty : ∀ k ∈ consumers.flatMap keys, ¬ Holds {} k := by
    intro k _
    cases k <;> simp [Holds, HasCredential, findByCredential]
  rw [fromConfig, TryFold.foldlM_ok_iff addConsumer_inserts, nodup_keys_iff]
  constructor
  · rintro ⟨hwell, ⟨hnames, hshared⟩, -⟩
    refine ⟨fun config hc => (hwell config hc).1, hnames, ?_, hshared⟩
    intro config hc authType credential hget
    have hmem := Std.ExtTreeMap.mem_toList_iff_getElem?_eq_some.mpr hget
    exact (hprimary authType credential).mp ((hwell config hc).2 _ hmem)
  · rintro ⟨hblank, hnames, hfields, hshared⟩
    refine ⟨fun config hc => ⟨hblank config hc, fun entry hentry => ?_⟩, ⟨hnames, hshared⟩, hempty⟩
    have hget := Std.ExtTreeMap.mem_toList_iff_getElem?_eq_some.mp hentry
    exact (hprimary entry.1 entry.2).mpr (hfields config hc entry.1 entry.2 hget)

/-- A consumer with one key. -/
def keyed (name key : String) : ConsumerConfig where
  name := name
  credentials := (∅ : HashMap Json).insert "key-auth" (.object [("key", .string key)])

theorem fromConfig_spec_aliceAndBob :
    ∃ store, fromConfig [keyed "alice" "a", keyed "bob" "b"] = .ok store ∧
      store.findByCredential "key-auth" "b" = some (Consumer.ofConfig (keyed "bob" "b")) := by
  have hok : (fromConfig [keyed "alice" "a", keyed "bob" "b"]).toOption.isSome := by decide +kernel
  rcases hstore : fromConfig [keyed "alice" "a", keyed "bob" "b"] with e | store
  · rw [hstore] at hok
    cases hok
  · refine ⟨store, rfl, ?_⟩
    refine ((fromConfig_spec _).2 store hstore _ _ _).mpr ⟨keyed "bob" "b", by simp, rfl, ?_⟩
    exact ⟨.object [("key", .string "b")], by decide +kernel, by decide⟩

end ConsumerStore

end Featherbit
