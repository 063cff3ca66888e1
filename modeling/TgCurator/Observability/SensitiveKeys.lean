import TgCurator.Observability.Redaction

/-!
# The two redactors

`_is_sensitive_key`, by which `sanitize_json` of
`infrastructure/database/analysis_repository.py` replaces the value of a key, beside
`_is_sensitive_field` of the logger. The sanitizer deletes what is no letter or digit from a name
and looks for six fragments and a final `token`; the logger puts an underscore there and looks for
the phrases of a list of its own.

The logger removes what the sanitizer would exactly if the names of the keys it reaches contain a
phrase of that list (`agrees_iff`). A name without separators is normalised alike by both
(`normalizeFieldName_of_fieldChars`), but `secret` is a fragment of the one and no phrase of the
other (`not_agrees_secret`).
-/

namespace TgCurator

/-! ## The classifiers -/

/-- `_SENSITIVE_KEY_FRAGMENTS`. -/
def sensitiveKeyFragments : List String :=
  ["secret", "password", "apikey", "authorization", "credential", "signature"]

/-- The name of a key without what is no letter or digit, in lower case. -/
def normalizeKey (key : String) : List Char :=
  (lowerName key).filter isFieldChar

/-- `_is_sensitive_key`. -/
def isSensitiveKey (key : String) : Bool :=
  (sensitiveKeyFragments.any fun fragment => decide (fragment.toList <:+: normalizeKey key)) ||
    normalizeKey key == "token".toList ||
    (decide ("token".toList <:+ normalizeKey key) &&
      !decide ("tokens".toList <:+ normalizeKey key))

theorem isSensitiveField_iff {fieldName : String} :
    isSensitiveField fieldName = true ↔ isSafeField fieldName = false ∧
      ∃ phrase ∈ sensitivePhrases, phrase.toList <:+: normalizeFieldName fieldName := by
  simp [isSensitiveField]

theorem underscoreRuns_of_fieldChars {b : Bool} {cs : List Char}
    (h : ∀ c ∈ cs, isFieldChar c = true) : underscoreRuns b cs = cs := by
  induction cs generalizing b with
  | nil => rfl
  | cons c cs ih =>
    rw [List.forall_mem_cons] at h
    rw [underscoreRuns, if_pos h.1, ih h.2]

theorem ne_underscore_of_isFieldChar {c : Char} (h : isFieldChar c = true) : c ≠ '_' := by
  rintro rfl
  exact absurd h (by decide)

/-- A name without separators is normalised to itself by both. -/
theorem normalizeFieldName_of_fieldChars {key : String}
    (h : ∀ c ∈ lowerName key, isFieldChar c = true) :
    normalizeFieldName key = lowerName key ∧ normalizeKey key = lowerName key := by
  refine ⟨?_, List.filter_eq_self.mpr h⟩
  have hne : ∀ c ∈ lowerName key, decide (c = '_') = false := fun c hc =>
    decide_eq_false (ne_underscore_of_isFieldChar (h c hc))
  rw [normalizeFieldName, underscoreRuns_of_fieldChars h]
  have hdrop : (lowerName key).dropWhile (· = '_') = lowerName key := by
    cases hname : lowerName key with
    | nil => rfl
    | cons c cs => rw [List.dropWhile_cons_of_neg (by simp [hne c (by simp [hname])])]
  rw [hdrop, List.rdropWhile_eq_self_iff]
  intro hnil
  simp [hne _ (List.getLast_mem hnil)]

/-! ## Agreement on a record -/

/-- A container is a mapping with the key. -/
def HasKey {n : ℕ} (graph : ObjectGraph n) (id : Fin n) (key : String) : Prop :=
  ∃ entries nodup, graph id = .mapping entries nodup ∧ key ∈ entries.keys

/-- Whatever the sanitizer takes for sensitive and is not listed as safe is removed from what is
logged of a value. -/
def Agrees {n : ℕ} (redactText : String → String) (graph : ObjectGraph n) (value : LogValue n) :
    Prop :=
  ∀ id key, HasKey graph id key → isSensitiveKey key = true → isSafeField key = false →
    Removed redactText graph value id key

/-- The logger removes what the sanitizer would exactly if every such key that it reaches has one
of its phrases in its name. -/
theorem agrees_iff {n : ℕ} (redactText : String → String) (graph : ObjectGraph n)
    (value : LogValue n) :
    Agrees redactText graph value ↔ ∀ id key, Exposed graph value id → HasKey graph id key →
      isSensitiveKey key = true → isSafeField key = false →
        ∃ phrase ∈ sensitivePhrases, phrase.toList <:+: normalizeFieldName key := by
  constructor
  · rintro h id key hexposed ⟨entries, nodup, hgraph, hmem⟩ hkey hsafe
    have hremoved :=
      (removed_iff hgraph hmem).mp (h id key ⟨entries, nodup, hgraph, hmem⟩ hkey hsafe)
    exact (isSensitiveField_iff.mp (hremoved.resolve_right (not_not.mpr hexposed))).2
  · rintro h id key ⟨entries, nodup, hgraph, hmem⟩ hkey hsafe
    refine (removed_iff hgraph hmem).mpr (or_iff_not_imp_right.mpr fun hexposed => ?_)
    exact isSensitiveField_iff.mpr
      ⟨hsafe, h id key (not_not.mp hexposed) ⟨entries, nodup, hgraph, hmem⟩ hkey hsafe⟩

/-! ## A key that is logged -/

theorem not_infix_of_eq {s : String} {l l' : List Char} (h : s = String.ofList l)
    (hl : ¬ l <:+: l') : ¬ s.toList <:+: l' := by
  rwa [h, String.toList_ofList]

theorem toList_secret : "secret".toList = ['s', 'e', 'c', 'r', 'e', 't'] := by
  rw [← String.toList_ofList (l := ['s', 'e', 'c', 'r', 'e', 't'])]

theorem normalize_secret : normalizeFieldName "secret" = "secret".toList ∧
    normalizeKey "secret" = "secret".toList := by
  have hlower : lowerName "secret" = "secret".toList := by
    rw [lowerName, toList_secret]
    decide
  rw [← hlower]
  exact normalizeFieldName_of_fieldChars
    (List.all_eq_true.mp (by rw [hlower, toList_secret]; decide))

/-- No phrase of the logger is in `secret`. -/
theorem not_infix_secret : ∀ phrase ∈ sensitivePhrases, ¬ phrase.toList <:+: "secret".toList := by
  rw [sensitivePhrases, toList_secret]
  repeat refine List.forall_mem_cons.mpr ⟨not_infix_of_eq rfl (by decide), ?_⟩
  exact List.forall_mem_nil _

theorem isSensitiveField_secret : isSensitiveField "secret" = false := by
  rw [← Bool.not_eq_true, isSensitiveField_iff, normalize_secret.1]
  rintro ⟨-, phrase, hphrase, hinfix⟩
  exact not_infix_secret phrase hphrase hinfix

theorem isSensitiveKey_secret : isSensitiveKey "secret" = true := by
  rw [isSensitiveKey, normalize_secret.2, List.any_eq_true.mpr ⟨"secret", ?_, ?_⟩, Bool.true_or,
    Bool.true_or]
  · exact List.mem_cons_self ..
  · exact decide_eq_true (List.infix_refl _)

/-- A record whose only key is `secret`. -/
def secretRecord : ObjectGraph 1 :=
  fun _ => .mapping [("secret", .str "hunter2")] (List.nodup_singleton _)

/-- The logger shows what is under a key named `secret`, which the sanitizer replaces. -/
theorem not_agrees_secret : ¬ Agrees id secretRecord (.container 0) := by
  intro h
  have hsafe : isSafeField "secret" = false := by
    simp [isSafeField, normalize_secret.1, safeSecretMetadataFields, String.toList_inj,
      -String.reduceToList]
  have hmem : "secret" ∈ Dict.keys [("secret", LogValue.str (n := 1) "hunter2")] :=
    List.mem_singleton_self _
  have hremoved := h 0 "secret" ⟨_, _, rfl, hmem⟩ isSensitiveKey_secret hsafe
  rcases (removed_iff rfl hmem).mp hremoved with hkey | hexposed
  · exact absurd (isSensitiveField_secret.symm.trans hkey) Bool.false_ne_true
  · exact hexposed ⟨0, rfl, .refl⟩

end TgCurator
