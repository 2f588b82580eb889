import Schemata.Proofs.Catalog.Step

/-!
# What requests keep

For one step, whatever fails in it:

- contents stay orderly (`Step.orderly`), and the rows of other identities stay as they are (`Step.row?_of_ne`);
- a descriptor stays unless its identity is to be erased (`Step.describedIn`), and so does a version of an identity
  with a descriptor unless the version or the identity is to be erased (`Step.version_kept`); appending takes no
  version away and changes none (`Step.version_kept_of_append`);
- while there is a descriptor, the counter never falls (`Step.counterIn_le`), and a number up to the latest one gets no
  new content (`Step.version_of_le`); the latest number falls only where a version goes that was the highest and was
  never counted (`Step.latestIn_le`).
-/

namespace Schemata.Catalog

open Table (Contents Trouble)

variable {may : Trouble → Prop} {i j : Identity} {s t : Contents} {row : RowName} {content octets : Bytes}
  {request : Request} {result : Except Failure Reply}

/-! ## Stored and appended contents -/

theorem row?_storedIn (hi : i.Fits) (hlatest : i.latestIn s < maxVersion) : j.row? (i.storedIn s content) row =
    if j = i ∧ row = .version (i.latestIn s + 1 : Nat) then some content else j.row? s row :=
  Identity.row?_putRow (Identity.key_version hi hlatest)

theorem row?_appendedIn (hi : i.Fits) (hlatest : i.latestIn s < maxVersion) : j.row? (i.appendedIn s content) row =
    if j = i ∧ row = .counter then some (Bytes.bigEndian 8 (i.latestIn s + 1))
    else if j = i ∧ row = .version (i.latestIn s + 1 : Nat) then some content else j.row? s row := by
  rw [Identity.appendedIn, Identity.row?_putRow (Identity.key_counter hi), row?_storedIn hi hlatest]

/-- The row after the latest number is free. -/
theorem Orderly.row?_next (hs : Orderly s) : i.row? s (.version (i.latestIn s + 1 : Nat)) = none := by
  cases h : i.row? s (.version (i.latestIn s + 1 : Nat)) with
  | none => rfl
  | some octets =>
    have := hs.le_latestIn (by rw [h]; simp)
    omega

theorem Orderly.storedIn (hs : Orderly s) (hne : content ≠ []) : Orderly (i.storedIn s content) :=
  hs.putRow ⟨by omega, hne⟩

theorem Orderly.appendedIn (hs : Orderly s) (hlatest : i.latestIn s < maxVersion) (hne : content ≠ []) :
    Orderly (i.appendedIn s content) :=
  (hs.storedIn hne).putRow ⟨_, by omega, hlatest, rfl⟩

/-- Steps keep contents orderly. -/
theorem Step.orderly (h : Step may s request result t) (hs : Orderly s) : Orderly t := by
  cases h with
  | halfCleared hm hd hrows => exact hs.eraseRows
  | described hcheck hi hd => exact hs.eraseRows.putRow ⟨_, _, rfl⟩
  | redescribed hcheck hi hd => exact hs.putRow ⟨_, _, rfl⟩
  | halfAppended hm hi hd hlatest => exact hs.storedIn (by simp)
  | appended hi hd hlatest => exact hs.appendedIn hlatest (by simp)
  | versionErased hi hd hrow => exact hs.eraseRow
  | halfErased hm hi => exact hs.eraseRows
  | erased hi => exact hs.eraseRow.eraseRows
  | _ => exact hs

/-- Steps leave other identities alone. -/
theorem Step.row?_of_ne (h : Step may s request result t) (hj : j ≠ request.identity) :
    j.row? t row = j.row? s row := by
  cases h with
  | halfCleared hm hd hrows => exact Identity.row?_eraseRows_of_ne hj
  | described hcheck hi hd => exact (Identity.row?_putRow_of_ne hj).trans (Identity.row?_eraseRows_of_ne hj)
  | redescribed hcheck hi hd => exact Identity.row?_putRow_of_ne hj
  | halfAppended hm hi hd hlatest => exact Identity.row?_putRow_of_ne hj
  | appended hi hd hlatest => exact (Identity.row?_putRow_of_ne hj).trans (Identity.row?_putRow_of_ne hj)
  | versionErased hi hd hrow => exact Identity.row?_eraseRow_of_ne hj
  | halfErased hm hi => exact Identity.row?_eraseRows_of_ne hj
  | erased hi => exact (Identity.row?_eraseRows_of_ne hj).trans (Identity.row?_eraseRow_of_ne hj)
  | _ => rfl

/-- A descriptor stays unless its identity is to be erased. -/
theorem Step.describedIn (h : Step may s request result t) (hd : i.DescribedIn s) (hrequest : request ≠ .erase i) :
    i.DescribedIn t := by
  by_cases hi : i = request.identity
  · subst hi
    unfold Identity.DescribedIn at hd ⊢
    cases h with
    | halfCleared hm hnone hrows => exact absurd hd hnone
    | described hcheck hi hnone => exact absurd hd hnone
    | redescribed hcheck hi hd' => simp [Request.identity, Identity.row?_putRow (Identity.key_descriptor hi)]
    | halfAppended hm hi hd' hlatest =>
      rw [row?_storedIn hi hlatest]
      simpa using hd
    | appended hi hd' hlatest =>
      rw [row?_appendedIn hi hlatest]
      simpa using hd
    | versionErased hi hd' hrow =>
      rw [Identity.row?_eraseRow]
      simpa using hd
    | halfErased hm hi => exact absurd rfl hrequest
    | erased hi => exact absurd rfl hrequest
    | _ => exact hd
  · rw [Identity.DescribedIn, h.row?_of_ne hi]
    exact hd

/-! ## An identity that keeps its descriptor -/

/-- What a step can do to the versions and the counter of an identity that has a descriptor before and after it. -/
inductive Change (i : Identity) (s : Contents) (request : Request) (result : Except Failure Reply) (t : Contents) : Prop
  /-- Nothing. -/
  | none (hrows : ∀ row, row ≠ .descriptor → i.row? t row = i.row? s row)
  /-- A content is stored and not counted. -/
  | stored (content : Bytes) (hrequest : request = .append i (some content)) (hne : content ≠ [])
    (hresult : result.toOption = Option.none) (hlatest : i.latestIn s < maxVersion) (ht : t = i.storedIn s content)
  /-- A content is appended. -/
  | appended (content : Bytes) (hrequest : request = .append i (some content)) (hne : content ≠ [])
    (hresult : result = .ok (.number (i.latestIn s + 1))) (hlatest : i.latestIn s < maxVersion)
    (ht : t = i.appendedIn s content)
  /-- A version is erased. -/
  | erased (number : Int) (hrequest : request = .eraseVersion i number) (hresult : result = .ok .done)
    (hrow : i.row? s (.version number) ≠ Option.none) (ht : t = i.eraseRow s (.version number))

/-- **While an identity keeps its descriptor, steps only append and erase versions.** -/
theorem Step.change (h : Step may s request result t) (hd : i.DescribedIn s) (hd' : i.DescribedIn t) :
    Change i s request result t := by
  by_cases hi : i = request.identity
  · subst hi
    cases h with
    | halfCleared hm hnone hrows => exact absurd hd hnone
    | described hcheck hi hnone => exact absurd hd hnone
    | redescribed hcheck hi _ =>
      refine .none fun row hrow => ?_
      rw [Request.identity, Identity.row?_putRow (Identity.key_descriptor hi), if_neg fun h => hrow h.2]
    | halfAppended hm hi _ hlatest => exact .stored _ rfl (by simp) rfl hlatest rfl
    | appended hi _ hlatest => exact .appended _ rfl (by simp) rfl hlatest rfl
    | versionErased hi _ hrow => exact .erased _ rfl rfl hrow rfl
    | halfErased hm hi =>
      rw [Identity.DescribedIn, Identity.row?_eraseRows] at hd'
      simp [Request.identity] at hd'
    | erased hi =>
      rw [Identity.DescribedIn, Identity.row?_eraseRows, Identity.row?_eraseRow] at hd'
      simp [Request.identity] at hd'
    | _ => exact .none fun _ _ => rfl
  · exact .none fun _ _ => h.row?_of_ne hi

theorem counterIn_of_row?_eq (h : i.row? t .counter = i.row? s .counter) : i.counterIn t = i.counterIn s := by
  rw [Identity.counterIn, h, Identity.counterIn]

theorem counterIn_storedIn (hi : i.Fits) (hlatest : i.latestIn s < maxVersion) :
    i.counterIn (i.storedIn s content) = i.counterIn s := by
  apply counterIn_of_row?_eq
  rw [row?_storedIn hi hlatest]
  simp

theorem counterIn_appendedIn (hi : i.Fits) (hlatest : i.latestIn s < maxVersion) :
    i.counterIn (i.appendedIn s content) = i.latestIn s + 1 := by
  rw [Identity.counterIn, row?_appendedIn hi hlatest, if_pos ⟨rfl, rfl⟩, Option.map_some, Option.getD_some,
    Bytes.ofBigEndian_bigEndian (Nat.lt_of_le_of_lt hlatest maxVersion_lt)]

theorem counterIn_eraseRow_version {n : Int} : i.counterIn (i.eraseRow s (.version n)) = i.counterIn s := by
  apply counterIn_of_row?_eq
  rw [Identity.row?_eraseRow]
  simp

theorem describedIn_eraseRow_version {n : Int} (hd : i.DescribedIn s) : i.DescribedIn (i.eraseRow s (.version n)) := by
  rw [Identity.DescribedIn, Identity.row?_eraseRow]
  simpa [Identity.DescribedIn] using hd

theorem describedIn_appendedIn (hi : i.Fits) (hlatest : i.latestIn s < maxVersion) (hd : i.DescribedIn s) :
    i.DescribedIn (i.appendedIn s content) := by
  rw [Identity.DescribedIn, row?_appendedIn hi hlatest]
  simpa [Identity.DescribedIn] using hd

/-- Appending gives the number after the latest one away. -/
theorem latestIn_appendedIn (hs : Orderly s) (hi : i.Fits) (hlatest : i.latestIn s < maxVersion) (hne : content ≠ []) :
    i.latestIn (i.appendedIn s content) = i.latestIn s + 1 := by
  have ht : Orderly (i.appendedIn s content) := hs.appendedIn hlatest hne
  apply Nat.le_antisymm
  · rw [ht.latestIn_le_iff hi, counterIn_appendedIn hi hlatest]
    refine ⟨Nat.le_refl _, fun n hn => ?_⟩
    by_cases he : n = i.latestIn s + 1
    · exact Nat.le_of_eq he
    · have hrow : i.row? s (.version n) ≠ none := by
        rw [row?_appendedIn hi hlatest, if_neg (by simp), if_neg] at hn
        · exact hn
        · rintro ⟨-, hnumber⟩
          exact he (Int.ofNat.inj (RowName.version.inj hnumber))
      exact Nat.le_succ_of_le (hs.le_latestIn hrow)
  · rw [← counterIn_appendedIn hi hlatest]
    exact ht.counterIn_le_latestIn hi

/-- Erasing the highest version, which was never counted, makes its number free again. -/
theorem latestIn_eraseRow_lt (hs : Orderly s) (hi : i.Fits) (hless : i.counterIn s < i.latestIn s) :
    i.latestIn (i.eraseRow s (.version (i.latestIn s))) < i.latestIn s := by
  have hle : i.latestIn (i.eraseRow s (.version (i.latestIn s))) ≤ i.latestIn s - 1 := by
    rw [hs.eraseRow.latestIn_le_iff hi, counterIn_eraseRow_version]
    refine ⟨by omega, fun n hn => ?_⟩
    rw [Identity.row?_eraseRow] at hn
    split at hn
    · exact absurd rfl hn
    · rename_i hne
      have hle := hs.le_latestIn hn
      have : n ≠ i.latestIn s := fun h => hne ⟨rfl, by rw [h]⟩
      omega
  omega

theorem fits_of_describedIn (hd : i.DescribedIn s) : i.Fits := by
  obtain ⟨octets, ho⟩ := Option.ne_none_iff_exists'.1 hd
  exact Identity.fits_of_row? ho

namespace Change

variable (h : Change i s request result t) (hi : i.Fits)
include h hi

/-- A number up to the latest one gets no new content. -/
theorem version_of_le {n : Nat} (hn : n ≤ i.latestIn s) (hrow : i.row? t (.version n) = some content) :
    i.row? s (.version n) = some content := by
  cases h with
  | none hrows => rw [← hrows _ (by simp), hrow]
  | stored content' _ _ _ hlatest ht =>
    rw [ht, row?_storedIn hi hlatest, if_neg] at hrow
    · exact hrow
    · rintro ⟨-, he⟩
      have := Int.ofNat.inj (RowName.version.inj he)
      omega
  | appended content' _ _ _ hlatest ht =>
    rw [ht, row?_appendedIn hi hlatest, if_neg (by simp), if_neg] at hrow
    · exact hrow
    · rintro ⟨-, he⟩
      have := Int.ofNat.inj (RowName.version.inj he)
      omega
  | erased number _ _ _ ht =>
    rw [ht, Identity.row?_eraseRow] at hrow
    split at hrow
    · cases hrow
    · exact hrow

variable (hs : Orderly s)
include hs

/-- The counter never falls. -/
theorem counterIn_le : i.counterIn s ≤ i.counterIn t := by
  have hle := hs.counterIn_le_latestIn hi
  cases h with
  | none hrows => rw [counterIn_of_row?_eq (hrows _ (by simp))]
  | stored content _ _ _ hlatest ht => rw [ht, counterIn_storedIn hi hlatest]
  | appended content _ _ _ hlatest ht =>
    rw [ht, counterIn_appendedIn hi hlatest]
    omega
  | erased number _ _ _ ht =>
    rw [ht, counterIn_eraseRow_version]

/-- A version that is not to be erased stays. -/
theorem version_kept {n : Int} (hrequest : request ≠ .eraseVersion i n) (hrow : i.row? s (.version n) = some content) :
    i.row? t (.version n) = some content := by
  have hnext := hs.row?_next (i := i)
  cases h with
  | none hrows => rw [hrows _ (by simp), hrow]
  | stored content' _ _ _ hlatest ht =>
    rw [ht, row?_storedIn hi hlatest, if_neg, hrow]
    rintro ⟨-, he⟩
    rw [← he, hrow] at hnext
    cases hnext
  | appended content' _ _ _ hlatest ht =>
    rw [ht, row?_appendedIn hi hlatest, if_neg (by simp), if_neg, hrow]
    rintro ⟨-, he⟩
    rw [← he, hrow] at hnext
    cases hnext
  | erased number hrequest' _ _ ht =>
    rw [ht, Identity.row?_eraseRow, if_neg, hrow]
    rintro ⟨-, he⟩
    cases he
    exact hrequest hrequest'

/-- **The latest number falls only where the highest version goes and was never counted.** -/
theorem latestIn_le (ht : Orderly t) : i.latestIn s ≤ i.latestIn t ∨
    i.counterIn s < i.latestIn s ∧ request = .eraseVersion i (i.latestIn s) ∧ result = .ok .done := by
  have hcounter : i.counterIn s ≤ i.latestIn t :=
    Nat.le_trans (h.counterIn_le hi hs) (ht.counterIn_le_latestIn hi)
  by_cases hcounted : i.latestIn s = i.counterIn s
  · left
    omega
  have hrow := (hs.latestIn_eq_or hi).resolve_left hcounted
  have hless := hs.counterIn_le_latestIn hi
  obtain ⟨content, hcontent⟩ := Option.ne_none_iff_exists'.1 hrow
  by_cases hrequest : request = .eraseVersion i (i.latestIn s)
  · cases h with
    | none hrows =>
      left
      apply ht.le_latestIn
      rwa [hrows _ (by simp)]
    | stored _ hrequest' => rw [hrequest] at hrequest'; cases hrequest'
    | appended _ hrequest' => rw [hrequest] at hrequest'; cases hrequest'
    | erased _ _ hresult => exact Or.inr ⟨by omega, hrequest, hresult⟩
  · left
    apply ht.le_latestIn
    rw [h.version_kept hi hs hrequest hcontent]
    simp

end Change

/-- An acknowledged number is the one after the latest. -/
theorem Step.of_number {appended : Option Bytes} {n : Nat} (h : Step may s (.append i appended) (.ok (.number n)) t) :
    ∃ content, appended = some content ∧ content ≠ [] ∧ i.Fits ∧ i.DescribedIn s ∧ i.latestIn s < maxVersion ∧
      n = i.latestIn s + 1 ∧ t = i.appendedIn s content := by
  cases h with
  | appended hi hd hlatest => exact ⟨_, rfl, by simp, hi, hd, hlatest, rfl, rfl⟩

/-- An answer tells whether there is a descriptor. -/
theorem Step.of_answer {b : Bool} (h : Step may s (.contains i) (.ok (.answer b)) t) :
    i.Fits ∧ b = (i.row? s .descriptor).isSome ∧ t = s := by
  cases h with
  | answered hi => exact ⟨hi, rfl, rfl⟩

/-- Appending takes no version away and changes none, whatever fails in it. -/
theorem Step.version_kept_of_append {appended : Option Bytes} {n : Int} (hs : Orderly s)
    (h : Step may s (.append j appended) result t) (hrow : i.row? s (.version n) = some content) :
    i.row? t (.version n) = some content := by
  by_cases hij : i = j
  · subst hij
    by_cases hd : i.DescribedIn s
    · have hd' := h.describedIn hd (by simp)
      exact (h.change hd hd').version_kept (fits_of_describedIn hd) hs (by simp) hrow
    · cases h with
      | halfAppended _ _ hd' => exact absurd hd' hd
      | appended _ hd' => exact absurd hd' hd
      | _ => exact hrow
  · rw [h.row?_of_ne hij]
    exact hrow

/-! ## Steps without failures -/

theorem stem_ne_error (hd : i.DescribedIn s) {reason : Invalid} : i.stem ≠ .error reason := by
  rw [Identity.stem_of_fits (fits_of_describedIn hd)]
  exact fun h => by cases h

section Calm

variable (hcalm : ∀ trouble, ¬may trouble) (hd : i.DescribedIn s)
include hcalm hd

/-- An append ends with the number after the latest, as long as there is one. -/
theorem Step.append_of_calm (h : Step may s (.append i (some content)) result t) (hne : content ≠ []) :
    i.latestIn s < maxVersion ∧ result = .ok (.number (i.latestIn s + 1)) ∧ t = i.appendedIn s content ∨
      i.latestIn s = maxVersion ∧ result = .error (.invalid (.versionOutOfRange (maxVersion + 1 : Nat))) ∧ t = s := by
  cases h with
  | refused hcheck =>
    obtain ⟨first, rest, rfl⟩ := List.exists_cons_of_ne_nil hne
    cases hcheck
  | unfit _ hstem => exact absurd hstem (stem_ne_error hd)
  | failed hm => exact absurd hm (hcalm _)
  | absent _ _ _ hnone => exact absurd hd hnone
  | full _ _ _ hlatest => exact Or.inr ⟨hlatest, rfl, rfl⟩
  | halfAppended hm => exact absurd hm (hcalm _)
  | appended _ _ hlatest => exact Or.inl ⟨hlatest, rfl, rfl⟩

/-- A version that is stored is told with its content. -/
theorem Step.entry_of_calm (hs : Orderly s) {n : Nat} (h : Step may s (.entry i (some n)) result t)
    (hrow : i.row? s (.version n) = some content) :
    ∃ entry, result = .ok (.entry entry) ∧ entry.identity = i ∧ entry.version = n ∧ entry.content = content ∧
      t = s := by
  have hselected : selectVersion i (some (n : Int)) (i.versionsIn s) = .ok ⟨n, content⟩ := by
    rw [hs.selectVersion_some (fits_of_describedIn hd), hrow]
    rfl
  cases h with
  | refused hcheck => cases hcheck
  | unfit _ hstem => exact absurd hstem (stem_ne_error hd)
  | failed hm => exact absurd hm (hcalm _)
  | absent _ _ _ hnone => exact absurd hd hnone
  | unselected _ _ hselect =>
    rw [hselected] at hselect
    cases hselect
  | told _ _ hselect =>
    rw [hselected] at hselect
    cases hselect
    exact ⟨_, rfl, rfl, rfl, rfl, rfl⟩

/-- Where no version can be selected, it is told what is missing, if it can be put into words. -/
theorem Step.entry_unselected_of_calm {number : Option Int} {what : Missing}
    (h : Step may s (.entry i number) result t) (hselected : selectVersion i number (i.versionsIn s) = .error what) :
    result = .error (Failure.missing what).worded := by
  cases h with
  | refused hcheck => cases hcheck
  | unfit _ hstem => exact absurd hstem (stem_ne_error hd)
  | failed hm => exact absurd hm (hcalm _)
  | absent _ _ _ hnone => exact absurd hd hnone
  | unselected _ _ hselect hfailure =>
    rw [hselected] at hselect
    cases hselect
    rw [hfailure]
  | told _ _ hselect =>
    rw [hselected] at hselect
    cases hselect

/-- A version that is not stored is missing. -/
theorem Step.entry_missing_of_calm (hs : Orderly s) {n : Nat} (h : Step may s (.entry i (some n)) result t)
    (hrow : i.row? s (.version n) = none) (hn : n ≤ 2 ^ 64) : result = .error (.missing (.version i n)) := by
  have hselected : selectVersion i (some (n : Int)) (i.versionsIn s) = .error (.version i n) := by
    rw [hs.selectVersion_some (fits_of_describedIn hd), hrow]
  rw [h.entry_unselected_of_calm hcalm hd hselected, Failure.worded_of_number rfl,
    if_pos (Text.isWritable_of_le (by rwa [Int.natAbs_natCast]))]

/-- The numbers of all versions are listed. -/
theorem Step.numbers_of_calm (h : Step may s (.numbers i) result t) :
    result = .ok (.numbers ((i.versionsIn s).map (·.number))) := by
  cases h with
  | refused hcheck => cases hcheck
  | unfit _ hstem => exact absurd hstem (stem_ne_error hd)
  | failed hm => exact absurd hm (hcalm _)
  | absent _ _ _ hnone => exact absurd hd hnone
  | listed => rfl

/-- It is told that the identity is there. -/
theorem Step.contains_of_calm (h : Step may s (.contains i) result t) : result = .ok (.answer true) := by
  cases h with
  | refused hcheck => cases hcheck
  | unfit _ hstem => exact absurd hstem (stem_ne_error hd)
  | failed hm => exact absurd hm (hcalm _)
  | absent _ hneeds => cases hneeds
  | answered => rw [Option.isSome_iff_ne_none.2 hd]

/-- A version that is stored can be erased. -/
theorem Step.eraseVersion_of_calm {n : Nat} (hs : Orderly s) (h : Step may s (.eraseVersion i n) result t)
    (hrow : i.row? s (.version n) ≠ none) : result = .ok .done ∧ t = i.eraseRow s (.version n) := by
  cases h with
  | refused hcheck => cases hcheck
  | unfit _ hstem => exact absurd hstem (stem_ne_error hd)
  | failed hm => exact absurd hm (hcalm _)
  | absent _ _ _ hnone => exact absurd hd hnone
  | unversioned _ _ _ hnone => exact absurd hnone hrow
  | beyond _ _ hmax =>
    have hle := Nat.le_trans (hs.le_latestIn hrow) (hs.latestIn_le (fits_of_describedIn hd))
    omega
  | versionErased => exact ⟨rfl, rfl⟩

end Calm

end Schemata.Catalog
