import Schemata.Proofs.Catalog.Run

/-!
# Acknowledged contents are durable

A content that an append acknowledged is read back under its number by every reader that meets no failure, until a call
asks to erase the version or the identity. What other calls did in between does not matter, nor where they failed: every
step of theirs keeps the descriptor and the version (`Trail.version_kept`).
-/

namespace Schemata.Catalog

variable {i : Identity}

/-- A descriptor and a version stay as long as no call asks to erase them. -/
theorem Trail.version_kept {s t : Table.Contents} {events : List Event} (h : Trail s events t) {n : Int}
    {content : Bytes} (hd : i.DescribedIn s) (hrow : i.row? s (.version n) = some content)
    (hrequests : ∀ event ∈ events, event.call.request ≠ .eraseVersion i n ∧ event.call.request ≠ .erase i) :
    i.DescribedIn t ∧ i.row? t (.version n) = some content := by
  induction h with
  | nil => exact ⟨hd, hrow⟩
  | cons h hrest ih =>
    obtain ⟨⟨hversion, hidentity⟩, hrequests⟩ := List.forall_mem_cons.1 hrequests
    have hd' := h.step.describedIn hd hidentity
    exact ih hd' ((h.step.change hd hd').version_kept (fits_of_describedIn hd) h.orderly hversion hrow) hrequests

/-- **Acknowledged contents are durable.** -/
theorem acknowledged_durable {store : Table.Store} (hnew : store.IsNew) {calls : List Call}
    {earlier between later : List Event} {upload read : Event} {content : Bytes} {n : Nat}
    (hrun : history calls store = earlier ++ upload :: between ++ read :: later)
    (hupload : upload.call.request = .append i (some content)) (hnumber : upload.acknowledged? i = some n)
    (hbetween : ∀ event ∈ between, event.call.request ≠ .eraseVersion i n ∧ event.call.request ≠ .erase i)
    (hread : read.call.request = .entry i (some n)) (hcalm : read.call.Calm) :
    read.revealed? i = some ((n : Int), content) := by
  obtain ⟨t, htrail, -, -⟩ := exists_trail calls Orderly.empty hnew.holds
  rw [hrun, Trail.append_iff] at htrail
  obtain ⟨v, hbefore, hafter⟩ := htrail
  obtain ⟨s, -, huploaded⟩ := Trail.append_iff.1 hbefore
  obtain ⟨u, hleads, hrest⟩ := Trail.cons_iff.1 huploaded
  obtain ⟨w, hreads, -⟩ := Trail.cons_iff.1 hafter
  -- The upload leaves the content under its number, behind a descriptor.
  obtain ⟨_, -, hresult⟩ := Event.of_acknowledged? hnumber
  have hstep := hleads.step
  rw [hupload, hresult] at hstep
  obtain ⟨octets, hoctets, -, hi, hd, hlatest, rfl, rfl⟩ := hstep.of_number
  cases hoctets
  have hrow : i.row? (i.appendedIn s content) (.version (i.latestIn s + 1 : Nat)) = some content := by
    rw [row?_appendedIn hi hlatest, if_neg (by simp), if_pos ⟨rfl, rfl⟩]
  -- There they stay, and the reader finds them.
  obtain ⟨hd', hrow'⟩ := hrest.version_kept (describedIn_appendedIn hi hlatest hd) hrow hbetween
  have hstep' := hreads.step
  rw [hread] at hstep'
  obtain ⟨entry, hentry, -, hversion, hcontent, -⟩ := hstep'.entry_of_calm hcalm hd' hreads.orderly hrow'
  exact Event.revealed?_eq_some_iff.2 ⟨_, entry, hread, hentry, hversion, hcontent⟩

namespace Sample

/-- A content is uploaded as version 1. -/
def uploaded : List Call := [(Request.describe draft).calm, (Request.append orders (some [1])).calm]

/-- Another identity comes and goes, its erasure fails midway, and the next version of the first one is half appended
and erased. -/
def busy : List Call :=
  [(Request.describe { draft with identity := ⟨"", "order"⟩ }).calm, (Request.append ⟨"", "order"⟩ (some [3])).calm,
    ⟨.append orders (some [2]), [none, none, none, none, some ⟨"disk full"⟩]⟩, (Request.eraseVersion orders 2).calm,
    ⟨.erase ⟨"", "order"⟩, [none, none, some ⟨"disk full"⟩]⟩,
    (Request.describe { draft with identity := ⟨"", "order"⟩ }).calm]

end Sample

theorem acknowledged_durable_busy :
    (∀ event ∈ history Sample.busy (afterCalls Sample.uploaded (.memory .empty)),
      event.call.request ≠ .eraseVersion Sample.orders 1 ∧ event.call.request ≠ .erase Sample.orders) ∧
    ((Request.entry Sample.orders (some 1)).calm.event
      (afterCalls (Sample.uploaded ++ Sample.busy) (.memory .empty))).revealed? Sample.orders = some (1, [1]) := by
  have hbetween : ∀ event ∈ history Sample.busy (afterCalls Sample.uploaded (.memory .empty)),
      event.call.request ≠ .eraseVersion Sample.orders 1 ∧ event.call.request ≠ .erase Sample.orders := by
    decide +kernel
  have hrun : history (Sample.uploaded ++ Sample.busy ++ [(Request.entry Sample.orders (some 1)).calm])
      (.memory .empty) = [(Request.describe Sample.draft).calm.event (.memory .empty)] ++
        (Request.append Sample.orders (some [1])).calm.event
          ((Request.describe Sample.draft).calm.event (.memory .empty)).after ::
        history Sample.busy (afterCalls Sample.uploaded (.memory .empty)) ++
          (Request.entry Sample.orders (some 1)).calm.event
            (afterCalls (Sample.uploaded ++ Sample.busy) (.memory .empty)) :: [] := by
    rw [history_append, history_append]
    rfl
  exact ⟨hbetween, acknowledged_durable .memory hrun rfl (by decide +kernel) hbetween rfl (Request.calm_calm _)⟩

end Schemata.Catalog
