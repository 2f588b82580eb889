import Schemata.Proofs.Catalog.Reached
import Schemata.Proofs.Service.Demands

/-!
# The service replies from the ledger

Where a ledger tracks the contents and nothing fails, what the service tells of a request is the ledger's answer in an
envelope, if it can be put into words (`ends_told`). For an identity with an account this is the list of its numbers
(`ends_numbers`), the entry of a version (`ends_entry`) or that there is none (`ends_entry_missing`), and, for a version
to erase that is there, a success after which the account is without it (`ends_eraseVersion`).
-/

namespace Schemata.Service

open Catalog
open Table (Contents)

variable {l : Ledger} {a : Account} {i : Identity} {s t : Contents}

/-- **What is told of a request is the ledger's answer**, if it can be put into words, and the ledger after it tracks
what is left. -/
theorem ends_told (request : Request) {α : Type} {x : Work α} {reply : α → Reply} {success : α → Envelope}
    {operation : String} {r : Except Failure Envelope} (hl : l.Tracks s) (hi : request.identity.Fits)
    (hwork : request.work = x >>= fun a => pure (reply a)) (hreply : ∀ {a b}, reply a = reply b → a = b)
    {answer : Except Failure α} {l' : Ledger} (hanswer : l.answer request = (answer.map reply, l'))
    (hwords : inWords (answer.map reply) = answer.map reply)
    (hends : (enveloped operation i (x >>= fun a => pure (success a))).Ends Table.Calm s r t) :
    r = (answer.map success).tryCatch told ∧ l'.Tracks t := by
  obtain ⟨r, hx, rfl⟩ := ends_enveloped.1 hends
  obtain ⟨r', hr, rfl⟩ := (Work.ends_bind_pure (by intros; exact Work.ends_pure)).1 hx
  have hrequest : request.work.Ends Table.Calm s (r'.map reply) t := by
    rw [hwork]
    exact (Work.ends_bind_pure (by intros; exact Work.ends_pure)).2 ⟨r', hr, rfl⟩
  obtain ⟨hsame, htracks⟩ := hl.answer hi (fun _ => id) (Request.step_of_ends hl.orderly hrequest)
  rw [hanswer] at hsame htracks
  rw [hwords] at hsame
  have hends : r' = answer := by
    cases r' with
    | ok a =>
      cases answer with
      | ok b => exact congrArg Except.ok (hreply (Except.ok.inj hsame))
      | error => cases hsame
    | error =>
      cases answer with
      | ok => cases hsame
      | error => exact congrArg Except.error (Except.error.inj hsame)
  exact ⟨hends ▸ rfl, htracks⟩

section Account

variable {context : String} {context? label? : Option String} {n : Int} {r : Except Failure Envelope}
  (hl : l.Tracks s) (hname : (standard context).identity context? label? = i) (ha : l i = some a)
include hl hname ha

/-- The numbers of an account are listed. -/
theorem ends_numbers (hends : ((standard context).numbers context? label?).Ends Table.Calm s r t) :
    r = .ok (.success "Success" (a.numbers.map .int)) ∧ l.Tracks t := by
  have hi := hl.fits_of_account ha
  have hanswer : l.answer (.numbers i) = (Except.map .numbers (.ok a.numbers), l) := by
    rw [Ledger.answer, Ledger.answerWith, ha]
    rfl
  subst hname
  obtain ⟨rfl, htracks⟩ := ends_told (.numbers _) hl hi rfl Reply.numbers.inj hanswer rfl hends
  rw [Except.map, ascending_of_pairwise a.pairwise_numbers]
  exact ⟨rfl, htracks⟩

/-- A version of an account is told. -/
theorem ends_entry {content : Bytes} (hcontent : a.content? n = some content)
    (hends : ((standard context).entry context? label? (some n)).Ends Table.Calm s r t) :
    r = .ok (.success "Success" [.object (a.entry i ⟨n.toNat, content⟩).fields]) ∧ l.Tracks t := by
  have hi := hl.fits_of_account ha
  have hanswer : l.answer (.entry i (some n)) = (Except.map .entry (.ok (a.entry i ⟨n.toNat, content⟩)), l) := by
    rw [Ledger.answer, Ledger.answerWith, ha]
    simp only [Account.select, hcontent]
    rfl
  subst hname
  exact ends_told (.entry _ _) hl hi rfl Reply.entry.inj hanswer rfl hends

/-- A version that an account has not is told as missing, if its number may be written. -/
theorem ends_entry_missing (hcontent : a.content? n = none) (hn : Text.isWritable n = true)
    (hends : ((standard context).entry context? label? (some n)).Ends Table.Calm s r t) :
    r = .ok (.notFound (Missing.version i n).message) ∧ l.Tracks t := by
  have hi := hl.fits_of_account ha
  have hanswer : l.answer (.entry i (some n)) = (Except.map .entry (.error (.missing (.version i n))), l) := by
    rw [Ledger.answer, Ledger.answerWith, ha]
    simp only [Account.select, hcontent]
    rfl
  have hwords : inWords (Except.map .entry (.error (.missing (.version i n)))) =
      Except.map .entry (.error (.missing (.version i n))) := by
    rw [Except.map, inWords_error, Failure.worded_of_number rfl, if_pos hn]
  subst hname
  exact ends_told (.entry _ _) hl hi rfl Reply.entry.inj hanswer hwords hends

/-- A version that an account has is erased. -/
theorem ends_eraseVersion {content : Bytes} (hcontent : a.content? n = some content)
    (hends : ((standard context).eraseVersion context? label? n).Ends Table.Calm s r t) :
    r = .ok (.success ("Successfully deleted version '" ++ Text.ofInt n ++ "' of schema " ++ i.text)) ∧
      (l.set i (some (a.without n))).Tracks t := by
  have hi := hl.fits_of_account ha
  have hanswer : l.answer (.eraseVersion i n) =
      (Except.map (fun _ => .done) (.ok ()), l.set i (some (a.without n))) := by
    rw [Ledger.answer, Ledger.answerWith, ha]
    simp only [hcontent]
    rfl
  subst hname
  exact ends_told (.eraseVersion _ _) hl hi rfl (fun _ => rfl) hanswer rfl hends

end Account

end Schemata.Service
