import ActiveGraphSurreal.Config

/-!
# Accepted configurations

What `__post_init__` accepts is well formed: a WebSocket address with a host, and texts without
white space around them. A copy of an accepted configuration is checked once more. It is the
same configuration unless the endpoint ends with `/rpc` or white space again.
-/

namespace ActiveGraphSurreal.SurrealConfig

/-! ### Texts -/

variable {s : String}

/-- The beginning of a list whose first element stays. -/
lemma dropWhile_of_prefix {α : Type} {p : α → Bool} {l m : List α} (h : l <+: m)
    (hm : m.dropWhile p = m) : l.dropWhile p = l := by
  obtain ⟨rest, rfl⟩ := h
  cases l with
  | nil => rfl
  | cons a l =>
    have ha : ¬ p a := by simpa using List.dropWhile_eq_self_iff.mp hm (by simp)
    rw [List.dropWhile_cons_of_neg ha]

lemma strip_strip (s : String) : strip (strip s) = strip s := by
  have hfirst : ((s.toList.dropWhile isSpace).rdropWhile isSpace).dropWhile isSpace =
      (s.toList.dropWhile isSpace).rdropWhile isSpace :=
    dropWhile_of_prefix (List.rdropWhile_prefix _ _) (List.dropWhile_idempotent _ _)
  unfold strip
  rw [String.toList_ofList, hfirst, List.rdropWhile_idempotent]

lemma length_strip_le (s : String) : (strip s).toList.length ≤ s.toList.length := by
  unfold strip
  rw [String.toList_ofList]
  exact (List.rdropWhile_prefix _ _).length_le.trans (List.dropWhile_suffix _).length_le

lemma rstripSlash_begins (s : String) : (rstripSlash s).toList <+: s.toList := by
  unfold rstripSlash
  rw [String.toList_ofList]
  exact List.rdropWhile_prefix _ _

lemma not_endsWith_rstripSlash (s : String) : ¬ endsWith "/" (rstripSlash s) := by
  unfold rstripSlash endsWith
  rintro ⟨t, hsuffix⟩
  have ht : t ++ "/".toList = s.toList.rdropWhile (· == '/') :=
    hsuffix.trans String.toList_ofList
  have hsame := List.rdropWhile_idempotent (· == '/') s.toList
  rw [← ht] at hsame
  have hdropped : (t ++ "/".toList).rdropWhile (· == '/') = t.rdropWhile (· == '/') :=
    List.rdropWhile_concat_pos _ _ _ rfl
  rw [hdropped] at hsame
  have hlength := (List.rdropWhile_prefix (· == '/') t).length_le
  rw [hsame] at hlength
  simp at hlength

lemma rstripSlash_of_not (h : ¬ endsWith "/" s) : rstripSlash s = s := by
  have hkept : s.toList.rdropWhile (· == '/') = s.toList := by
    rw [List.rdropWhile_eq_self_iff]
    intro hl hlast
    refine h ⟨s.toList.dropLast, ?_⟩
    have hslash : s.toList.getLast hl = '/' := by simpa using hlast
    have hwhole := List.dropLast_append_getLast hl
    rw [hslash] at hwhole
    exact hwhole
  unfold rstripSlash
  rw [hkept, String.ofList_toList]

/-! ### The endpoint -/

lemma normalizedEndpoint_of_rpc (h : endsWith "/rpc" (rstripSlash (strip s))) :
    normalizedEndpoint s = rstripSlash (dropLastFour (rstripSlash (strip s))) := by
  unfold normalizedEndpoint
  rw [if_pos h]

lemma normalizedEndpoint_of_not (h : ¬ endsWith "/rpc" (rstripSlash (strip s))) :
    normalizedEndpoint s = rstripSlash (strip s) := by
  unfold normalizedEndpoint
  rw [if_neg h]

lemma not_endsWith_normalizedEndpoint (s : String) : ¬ endsWith "/" (normalizedEndpoint s) := by
  by_cases h : endsWith "/rpc" (rstripSlash (strip s))
  · rw [normalizedEndpoint_of_rpc h]
    exact not_endsWith_rstripSlash _
  · rw [normalizedEndpoint_of_not h]
    exact not_endsWith_rstripSlash _

/-- The endpoints that normalisation leaves as they are. -/
theorem normalizedEndpoint_eq_self_iff (hs : ¬ endsWith "/" s) :
    normalizedEndpoint s = s ↔ strip s = s ∧ ¬ endsWith "/rpc" s := by
  have hlength : (rstripSlash (strip s)).toList.length ≤ s.toList.length :=
    (rstripSlash_begins _).length_le.trans (length_strip_le s)
  constructor
  · intro h
    by_cases hrpc : endsWith "/rpc" (rstripSlash (strip s))
    · -- the suffix is cut off, so the result is shorter
      have hfour : 4 ≤ (rstripSlash (strip s)).toList.length := hrpc.length_le
      have hless : (normalizedEndpoint s).toList.length ≤
          (rstripSlash (strip s)).toList.length - 4 := by
        rw [normalizedEndpoint_of_rpc hrpc]
        refine (rstripSlash_begins _).length_le.trans ?_
        unfold dropLastFour
        rw [String.toList_ofList, List.rdrop, List.length_take]
        exact Nat.min_le_left _ _
      rw [h] at hless
      omega
    · have hkept : rstripSlash (strip s) = s := (normalizedEndpoint_of_not hrpc).symm.trans h
      have hbegins : s.toList <+: (strip s).toList := by
        have hbegins := rstripSlash_begins (strip s)
        rwa [hkept] at hbegins
      have hstrip : s = strip s :=
        String.toList_injective (hbegins.eq_of_length_le (length_strip_le s))
      rw [hkept] at hrpc
      exact ⟨hstrip.symm, hrpc⟩
  · rintro ⟨hstrip, hrpc⟩
    have hsame : rstripSlash (strip s) = s := by rw [hstrip, rstripSlash_of_not hs]
    rw [normalizedEndpoint_of_not (by rwa [hsame]), hsame]

/-! ### Configurations -/

variable {c c' : SurrealConfig}

lemma stripped_eq_ok {name value value' : String} :
    stripped name value = .ok value' ↔ strip value ≠ "" ∧ value' = strip value := by
  unfold stripped raiseIf
  by_cases h : strip value = ""
  · simp [h, bind, Except.bind]
  · simp [h, bind, Except.bind, pure, Except.pure, eq_comm]

/-- The endpoint names a WebSocket. -/
abbrev UsesWebSocket (endpoint : String) : Prop :=
  startsWith "ws://" endpoint ∨ startsWith "wss://" endpoint

/-- A configuration that is not accepted raises a `ConfigurationError`. -/
theorem postInit_eq_error {e : PyErr} (h : c.postInit = .error e) :
    e.cls = .other "ConfigurationError" := by
  have hstripped : ∀ {name value : String} {e : PyErr}, stripped name value = .error e →
      e.cls = .other "ConfigurationError" := by
    intro name value e h
    rcases bind_eq_error.mp h with hraised | ⟨u, -, hreturned⟩
    · rw [← (raiseIf_eq_error.mp hraised).2]
      rfl
    · cases hreturned
  rcases bind_eq_error.mp h with h | ⟨u, -, h⟩
  · rw [← (raiseIf_eq_error.mp h).2]
    rfl
  rcases bind_eq_error.mp h with h | ⟨namespace_, -, h⟩
  · exact hstripped h
  rcases bind_eq_error.mp h with h | ⟨database, -, h⟩
  · exact hstripped h
  rcases bind_eq_error.mp h with h | ⟨username, -, h⟩
  · exact hstripped h
  rcases bind_eq_error.mp h with h | ⟨password, -, h⟩
  · exact hstripped h
  · cases h

/-- What `__post_init__` makes of a configuration that it accepts. -/
structure Accepts (c c' : SurrealConfig) : Prop where
  endpoint : c'.endpoint = normalizedEndpoint c.endpoint
  scheme : UsesWebSocket c'.endpoint
  namespace_ : strip c.namespace_ ≠ "" ∧ c'.namespace_ = strip c.namespace_
  database : strip c.database ≠ "" ∧ c'.database = strip c.database
  username : strip c.username ≠ "" ∧ c'.username = strip c.username
  password : strip c.password ≠ "" ∧ c'.password = strip c.password

theorem postInit_eq_ok : c.postInit = .ok c' ↔ Accepts c c' := by
  constructor
  · intro h
    obtain ⟨u, hscheme, h⟩ := bind_eq_ok.mp h
    obtain ⟨namespace_, hnamespace, h⟩ := bind_eq_ok.mp h
    obtain ⟨database, hdatabase, h⟩ := bind_eq_ok.mp h
    obtain ⟨username, husername, h⟩ := bind_eq_ok.mp h
    obtain ⟨password, hpassword, h⟩ := bind_eq_ok.mp h
    obtain rfl := pure_eq_ok.mp h
    have hws : UsesWebSocket (normalizedEndpoint c.endpoint) :=
      not_not.mp (raiseIf_eq_ok.mp hscheme)
    exact ⟨rfl, hws, stripped_eq_ok.mp hnamespace, stripped_eq_ok.mp hdatabase,
      stripped_eq_ok.mp husername, stripped_eq_ok.mp hpassword⟩
  · intro h
    obtain ⟨endpoint, namespace_, database, username, password⟩ := c'
    obtain ⟨hendpoint, hscheme, hnamespace, hdatabase, husername, hpassword⟩ := h
    simp only at hendpoint hscheme hnamespace hdatabase husername hpassword
    subst hendpoint
    refine bind_eq_ok.mpr ⟨(), raiseIf_eq_ok.mpr (not_not.mpr hscheme), ?_⟩
    refine bind_eq_ok.mpr ⟨_, stripped_eq_ok.mpr hnamespace, ?_⟩
    refine bind_eq_ok.mpr ⟨_, stripped_eq_ok.mpr hdatabase, ?_⟩
    refine bind_eq_ok.mpr ⟨_, stripped_eq_ok.mpr husername, ?_⟩
    exact bind_eq_ok.mpr ⟨_, stripped_eq_ok.mpr hpassword, rfl⟩

lemma Accepts.not_endsWith (h : Accepts c c') : ¬ endsWith "/" c'.endpoint := by
  rw [h.endpoint]
  exact not_endsWith_normalizedEndpoint _

/-- A WebSocket address with a host and no slash at its end, and texts that are not blank. -/
structure WellFormed (c : SurrealConfig) : Prop where
  address : ∃ host : List Char, host ≠ [] ∧
    (c.endpoint.toList = "ws://".toList ++ host ∨ c.endpoint.toList = "wss://".toList ++ host)
  closed : ¬ endsWith "/" c.endpoint
  texts : ∀ text ∈ [c.namespace_, c.database, c.username, c.password],
    text ≠ "" ∧ strip text = text

lemma exists_host {scheme : String} (hscheme : endsWith "/" scheme) (h : startsWith scheme s)
    (hs : ¬ endsWith "/" s) : ∃ host : List Char, host ≠ [] ∧ s.toList = scheme.toList ++ host := by
  obtain ⟨host, hhost⟩ := h
  refine ⟨host, ?_, hhost.symm⟩
  rintro rfl
  rw [List.append_nil] at hhost
  refine hs ?_
  unfold endsWith
  rw [← hhost]
  exact hscheme

lemma Accepts.wellFormed (h : Accepts c c') : c'.WellFormed := by
  have hstays : ∀ {value value' : String}, strip value ≠ "" ∧ value' = strip value →
      value' ≠ "" ∧ strip value' = value' := by
    rintro value value' ⟨hne, rfl⟩
    exact ⟨hne, strip_strip _⟩
  refine ⟨?_, h.not_endsWith, ?_⟩
  · rcases h.scheme with hws | hwss
    · obtain ⟨host, hne, hhost⟩ := exists_host (by decide) hws h.not_endsWith
      exact ⟨host, hne, .inl hhost⟩
    · obtain ⟨host, hne, hhost⟩ := exists_host (by decide) hwss h.not_endsWith
      exact ⟨host, hne, .inr hhost⟩
  · intro text htext
    simp only [List.mem_cons, List.not_mem_nil, or_false] at htext
    rcases htext with rfl | rfl | rfl | rfl
    · exact hstays h.namespace_
    · exact hstays h.database
    · exact hstays h.username
    · exact hstays h.password

/-- An accepted configuration is well formed, and accepted unchanged once more exactly when its
endpoint ends with neither white space nor `/rpc`. -/
theorem accepted_config (h : c.postInit = .ok c') :
    c'.WellFormed ∧ (c'.postInit = .ok c' ↔
      strip c'.endpoint = c'.endpoint ∧ ¬ endsWith "/rpc" c'.endpoint) := by
  have haccepts : Accepts c c' := postInit_eq_ok.mp h
  have htexts := haccepts.wellFormed.texts
  refine ⟨haccepts.wellFormed, ?_⟩
  rw [← normalizedEndpoint_eq_self_iff haccepts.not_endsWith, postInit_eq_ok]
  constructor
  · intro hagain
    exact hagain.endpoint.symm
  · intro hsame
    have hagain : ∀ text ∈ [c'.namespace_, c'.database, c'.username, c'.password],
        strip text ≠ "" ∧ text = strip text := by
      intro text htext
      obtain ⟨hne, hstrip⟩ := htexts text htext
      exact ⟨by rwa [hstrip], hstrip.symm⟩
    exact ⟨hsame.symm, haccepts.scheme, hagain _ (by simp), hagain _ (by simp),
      hagain _ (by simp), hagain _ (by simp)⟩

theorem accepted_config_rpc :
    ∃ c c' : SurrealConfig, c.postInit = .ok c' ∧ c'.WellFormed ∧ c'.postInit ≠ .ok c' := by
  let c : SurrealConfig := ⟨" wss://db.example.test/rpc/rpc/ ", "agents", " demo", "root", "secret"⟩
  let c' : SurrealConfig := ⟨"wss://db.example.test/rpc", "agents", "demo", "root", "secret"⟩
  have haccepts : Accepts c c' := ⟨by decide +kernel, .inr (by decide +kernel), by decide +kernel,
    by decide +kernel, by decide +kernel, by decide +kernel⟩
  have hrpc : endsWith "/rpc" c'.endpoint := by decide +kernel
  have hinit : c.postInit = .ok c' := postInit_eq_ok.mpr haccepts
  obtain ⟨hwell, hagain⟩ := accepted_config hinit
  exact ⟨c, c', hinit, hwell, fun hsame => (hagain.mp hsame).2 hrpc⟩

end ActiveGraphSurreal.SurrealConfig
