/-
  CONSUMERS AND CREDENTIALS (`consumers/mod.rs`): the store that auth plugins look credentials up
  in, built whole from the declared consumers, and what they attach to a request of a match.

  `fromConfig` inserts, for each consumer, its name and one pair (auth type, credential value) per
  credential, and fails at the first that is already there.  It is an instance of
  `Lib.TryFold`, twice: the credentials of one consumer, and the list of consumers.  So whether
  a list of consumers is accepted does not depend on its order (`fromConfig_ok_perm`).
-/
import Featherbit.Lib.TryFold
import Featherbit.Config.Gateway
import Featherbit.Context

namespace Featherbit

/-- A resolved consumer, shared read-only across requests. -/
structure Consumer where
  name : String
  group : Option String
  labels : HashMap String
  credentials : HashMap Json
deriving DecidableEq

/-- Lookup structure over the declared consumers. -/
structure ConsumerStore where
  byName : HashMap Consumer := ∅
  /-- auth type → credential value → consumer -/
  byCredential : HashMap (HashMap Consumer) := ∅
deriving DecidableEq

/-- The credential field indexed per auth type. -/
def primaryCredentialField : String → String
  | "basic-auth" => "username"
  | "hmac-auth" => "access_key"
  | _ => "key"

/-- The value a credential is indexed by. -/
def primaryCredential (authType : String) (credential : Json) : Option String :=
  (credential.get (primaryCredentialField authType)).bind Json.asStr

/-- The consumer a declaration stands for. -/
def Consumer.ofConfig (config : ConsumerConfig) : Consumer where
  name := config.name
  group := config.group
  labels := config.labels
  credentials := config.credentials

namespace ConsumerStore

/-- One credential of `consumer`, indexed. -/
def addCredential (consumer : Consumer) (store : ConsumerStore) (entry : String × Json) :
    Except String ConsumerStore :=
  let (authType, credential) := entry
  match primaryCredential authType credential with
  | none =>
    .error ("consumer '" ++ consumer.name ++ "': credential '" ++ authType ++
      "' is missing string field '" ++ primaryCredentialField authType ++ "'")
  | some value =>
    let index := store.byCredential.getD authType ∅
    match index[value]? with
    | some existing =>
      .error ("consumers '" ++ existing.name ++ "' and '" ++ consumer.name ++
        "' share the same " ++ authType ++ " credential")
    | none =>
      .ok
        { store with
          byCredential := store.byCredential.insert authType (index.insert value consumer) }

/-- One consumer, entered under its name and its credentials.  The credentials are a `HashMap`:
    which of several faults is reported is left open by the source, not whether there is one. -/
def addConsumer (store : ConsumerStore) (config : ConsumerConfig) : Except String ConsumerStore :=
  if trim config.name = "" then .error "consumer with empty name"
  else
    let consumer := Consumer.ofConfig config
    if config.name ∈ store.byName then
      .error ("duplicate consumer name '" ++ consumer.name ++ "'")
    else
      config.credentials.toList.foldlM (addCredential consumer)
        { store with byName := store.byName.insert config.name consumer }

/-- `ConsumerStore::from_config`. -/
def fromConfig (consumers : List ConsumerConfig) : Except String ConsumerStore :=
  consumers.foldlM addConsumer {}

/-- `ConsumerStore::find_by_credential`. -/
def findByCredential (store : ConsumerStore) (authType value : String) : Option Consumer :=
  store.byCredential[authType]?.bind fun index => index[value]?

/-! ## When a list of consumers is accepted -/

/-- The pair a credential is indexed under. -/
def credentialKey (entry : String × Json) : List (String × String) :=
  ((primaryCredential entry.1 entry.2).map fun value => (entry.1, value)).toList

/-- The store has the pair (auth type, value). -/
def HasCredential (store : ConsumerStore) (k : String × String) : Prop :=
  (store.findByCredential k.1 k.2).isSome

theorem addCredential_ok {consumer : Consumer} {store store' : ConsumerStore}
    {entry : String × Json} (h : addCredential consumer store entry = .ok store') :
    ∃ value, primaryCredential entry.1 entry.2 = some value ∧
      ¬ store.HasCredential (entry.1, value) ∧
      store' =
        { store with
          byCredential := store.byCredential.insert entry.1
            ((store.byCredential.getD entry.1 ∅).insert value consumer) } := by
  obtain ⟨authType, credential⟩ := entry
  unfold addCredential at h
  dsimp only at h
  split at h
  · nomatch h
  · rename_i value hvalue
    split at h
    · nomatch h
    · rename_i hnone
      refine ⟨value, hvalue, ?_, (Except.ok.inj h).symm⟩
      rw [Std.ExtTreeMap.getD_eq_getD_getElem?] at hnone
      unfold HasCredential findByCredential
      cases hidx : store.byCredential[authType]? with
      | none => simp
      | some index =>
        rw [hidx] at hnone
        simpa using hnone

theorem hasCredential_insert (consumer : Consumer) (store : ConsumerStore) (authType value : String)
    (k : String × String) :
    HasCredential
        { store with
          byCredential := store.byCredential.insert authType
            ((store.byCredential.getD authType ∅).insert value consumer) } k ↔
      store.HasCredential k ∨ k = (authType, value) := by
  obtain ⟨authType', value'⟩ := k
  unfold HasCredential findByCredential
  simp only [Std.ExtTreeMap.getElem?_insert, Std.compare_eq_iff_eq, Prod.mk.injEq]
  by_cases ha : authType = authType'
  · subst ha
    rw [if_pos rfl, Option.bind_some, Std.ExtTreeMap.getElem?_insert,
      Std.ExtTreeMap.getD_eq_getD_getElem?]
    simp only [Std.compare_eq_iff_eq]
    by_cases hv : value = value'
    · simp [hv]
    · have hv' : ¬ value' = value := fun h => hv h.symm
      cases hidx : store.byCredential[authType]? <;> simp [hv, hv']
  · have ha' : ¬ authType' = authType := fun h => ha h.symm
    simp [ha, ha']

/-- Indexing the credentials of one consumer. -/
theorem addCredential_inserts (consumer : Consumer) :
    TryFold.Inserts (addCredential consumer) HasCredential
      (fun entry => (primaryCredential entry.1 entry.2).isSome) credentialKey where
  ok_iff := by
    rintro store ⟨authType, credential⟩
    constructor
    · rintro ⟨store', h⟩
      obtain ⟨value, hvalue, hfresh, -⟩ := addCredential_ok h
      simp [credentialKey, hvalue, hfresh]
    · rintro ⟨hcheck, -, hfresh⟩
      obtain ⟨value, hvalue⟩ := Option.isSome_iff_exists.mp hcheck
      have hnot : ¬ store.HasCredential (authType, value) :=
        hfresh _ (by simp [credentialKey, hvalue])
      have hnone : (store.byCredential.getD authType ∅)[value]? = none := by
        unfold HasCredential findByCredential at hnot
        rw [Std.ExtTreeMap.getD_eq_getD_getElem?]
        cases hidx : store.byCredential[authType]? with
        | none => simp
        | some index =>
          rw [hidx] at hnot
          simpa using hnot
      exact ⟨_, by simp only [addCredential, hvalue, hnone]; rfl⟩
  holds := by
    rintro store entry store' h k
    obtain ⟨value, hvalue, -, rfl⟩ := addCredential_ok h
    rw [hasCredential_insert]
    simp [credentialKey, hvalue]

/-- Credentials do not touch the names. -/
theorem foldlM_addCredential_byName (consumer : Consumer) :
    ∀ {entries : List (String × Json)} {store store' : ConsumerStore},
      entries.foldlM (addCredential consumer) store = .ok store' →
      store'.byName = store.byName := by
  intro entries
  induction entries with
  | nil =>
    intro store store' h
    rw [← Except.ok.inj h]
  | cons entry entries ih =>
    intro store store' h
    rw [List.foldlM_cons] at h
    cases he : addCredential consumer store entry with
    | error m => rw [he] at h; nomatch h
    | ok store1 =>
      rw [he] at h
      obtain ⟨value, -, -, hstore⟩ := addCredential_ok he
      rw [ih h, hstore]

/-- The keys of a consumer: its name, and a pair for each credential. -/
def keys (config : ConsumerConfig) : List (String ⊕ String × String) :=
  .inl config.name :: (config.credentials.toList.flatMap credentialKey).map .inr

/-- The store holds a key of either sort. -/
def Holds (store : ConsumerStore) : String ⊕ String × String → Prop
  | .inl name => name ∈ store.byName
  | .inr k => store.HasCredential k

/-- What a declaration must satisfy by itself. -/
def WellFormed (config : ConsumerConfig) : Prop :=
  trim config.name ≠ "" ∧
    ∀ entry ∈ config.credentials.toList, (primaryCredential entry.1 entry.2).isSome

/-- Entering the consumers of a list. -/
theorem addConsumer_inserts : TryFold.Inserts addConsumer Holds WellFormed keys where
  ok_iff := by
    intro store config
    -- the credentials are entered after the name, by the same rule
    have hfold := TryFold.foldlM_ok_iff (addCredential_inserts (Consumer.ofConfig config))
      (l := config.credentials.toList)
      (s := { store with byName := store.byName.insert config.name (Consumer.ofConfig config) })
    have hinr : ((config.credentials.toList.flatMap credentialKey).map
        (Sum.inr : _ → String ⊕ String × String)).Nodup ↔
        (config.credentials.toList.flatMap credentialKey).Nodup :=
      List.nodup_map_iff Sum.inr_injective
    constructor
    · rintro ⟨store', h⟩
      unfold addConsumer at h
      split at h
      · nomatch h
      · rename_i hname
        dsimp only at h
        split at h
        · nomatch h
        · rename_i hfresh
          obtain ⟨hchecks, hnodup, hnew⟩ := hfold.mp ⟨store', h⟩
          refine ⟨⟨hname, hchecks⟩, ?_, ?_⟩
          · rw [keys, List.nodup_cons, hinr]
            exact ⟨by simp, hnodup⟩
          · intro k hk
            rcases List.mem_cons.mp hk with rfl | hk
            · exact hfresh
            · obtain ⟨pair, hpair, rfl⟩ := List.mem_map.mp hk
              exact hnew pair hpair
    · rintro ⟨⟨hname, hchecks⟩, hnodup, hnew⟩
      rw [keys, List.nodup_cons, hinr] at hnodup
      have hfresh : config.name ∉ store.byName := hnew (.inl config.name) List.mem_cons_self
      unfold addConsumer
      rw [if_neg hname]
      dsimp only
      rw [if_neg hfresh]
      refine hfold.mpr ⟨hchecks, hnodup.2, fun k hk => ?_⟩
      exact hnew (.inr k) (List.mem_cons_of_mem _ (List.mem_map_of_mem hk))
  holds := by
    intro store config store' h k
    unfold addConsumer at h
    split at h
    · nomatch h
    · dsimp only at h
      split at h
      · nomatch h
      · -- entering the credentials leaves the names as they are
        have hnames := foldlM_addCredential_byName _ h
        have hcreds := TryFold.foldlM_holds (addCredential_inserts _) h
        cases k with
        | inl name =>
          simp only [Holds, hnames, keys, List.mem_cons, Std.ExtTreeMap.mem_insert,
            Std.compare_eq_iff_eq, Sum.inl.injEq]
          simp [eq_comm, or_comm]
        | inr k =>
          show store'.HasCredential k ↔ store.HasCredential k ∨ Sum.inr k ∈ keys config
          rw [hcreds k]
          simp [keys]
          rfl

/-- **Acceptance does not depend on the order** of the declared consumers. -/
theorem fromConfig_ok_perm {consumers consumers' : List ConsumerConfig}
    (hperm : consumers.Perm consumers') (h : ∃ store, fromConfig consumers = .ok store) :
    ∃ store, fromConfig consumers' = .ok store :=
  TryFold.foldlM_ok_perm addConsumer_inserts hperm h

/-- Accepted consumers have distinct names. -/
theorem names_nodup {consumers : List ConsumerConfig} {store : ConsumerStore}
    (h : fromConfig consumers = .ok store) : (consumers.map (·.name)).Nodup := by
  obtain ⟨-, hnodup, -⟩ := (TryFold.foldlM_ok_iff addConsumer_inserts).mp ⟨store, h⟩
  have hnames : (consumers.flatMap keys).filterMap Sum.getLeft? = consumers.map (·.name) := by
    clear h hnodup
    induction consumers with
    | nil => rfl
    | cons config consumers ih =>
      rw [List.flatMap_cons, List.filterMap_append, ih]
      simp [keys]
  rw [← hnames]
  exact hnodup.filterMap fun a b c ha hb => by
    rw [Option.mem_def, Sum.getLeft?_eq_some_iff] at ha hb
    rw [ha, hb]

end ConsumerStore

/-! ## Attaching a matched consumer -/

/-- The labels as the JSON object later nodes read. -/
def Consumer.labelsJson (consumer : Consumer) : Json :=
  .object (consumer.labels.toList.map fun (key, value) => (key, .string value))

/-- `attach_consumer`: the `context.message` keys later nodes read and the headers the upstream
    reads. -/
def attachConsumer (ctx : Context) (consumer : Consumer) (authType : String) : Context :=
  let message := ctx.message.insert "consumer.name" (.string consumer.name)
  let message :=
    match consumer.group with
    | some group => message.insert "consumer.group" (.string group)
    | none => message
  let message :=
    if consumer.labels.isEmpty then message
    else message.insert "consumer.labels" consumer.labelsJson
  let message := message.insert "consumer.auth_type" (.string authType)
  let headers := ctx.request.headers.insert "x-consumer-username" [consumer.name]
  match consumer.labels["custom_id"]? with
  | some customId =>
    { ctx with
      message := message.insert "consumer.custom_id" (.string customId)
      request :=
        { ctx.request with headers := headers.insert "x-consumer-custom-id" [customId] } }
  | none => { ctx with message := message, request := { ctx.request with headers := headers } }

end Featherbit
