import LiquidStaking.Proofs.Numerals
import LiquidStaking.Proofs.Wire.Extensions
import LiquidStaking.Proofs.Wire.Writing
import Mathlib.Data.List.ReduceOption

/-!
# Reports of remote transactions

What a report comes to: for each entry, current responses first, the time at which stake is free,
the reward withdrawn, or nothing.  Exactly that is read from every encoding of the report, also
from one with fields nobody knows, and a report is refused where a response that counts is no
message.
-/

namespace LiquidStaking.Wire

open Width

variable {bytes : Bytes} {denom : Denom} {time : Timestamp} {coin : CoinText}
  {coins : List CoinText} {entry : Entry} {amounts : List Nat} {told : Option Receipt}

/-! ## Times -/

/-- Seconds since the start of 1970; a time before is negative. -/
def Timestamp.since (time : Timestamp) : Int := (BitVec.ofNat 64 time.seconds).toInt

theorem Timestamp.since_of_lt (early : time.seconds < limit 63) : time.since = time.seconds := by
  have double : 2 * limit 63 = limit 64 := by decide
  have wide : 2 ^ 64 = limit 64 := rfl
  rw [Timestamp.since, BitVec.toInt_eq_toNat_cond, BitVec.toNat_ofNat, wide,
    Nat.mod_eq_of_lt (by omega), if_pos (by omega)]

theorem Timestamp.since_of_le (late : limit 63 ≤ time.seconds) (fits : time.seconds < limit 64) :
    time.since < 0 := by
  have double : 2 * limit 63 = limit 64 := by decide
  have wide : 2 ^ 64 = limit 64 := rfl
  rw [Timestamp.since, BitVec.toInt_eq_toNat_cond, BitVec.toNat_ofNat, wide,
    Nat.mod_eq_of_lt (by omega), if_neg (by omega)]
  omega

theorem varint_lt_of_parts {parts : List (List Field)} {payloads : List Payload} {field : Field}
    {n : Nat} (split : List.Forall₂ (Nested Eq) parts payloads) (member : field ∈ parts.flatten)
    (holds : field.payload = .varint n) : n < limit 64 := by
  induction split with
  | nil => cases member
  | cons own later ih =>
      rcases List.mem_append.mp member with here | there
      · obtain ⟨_, -, _, written, rfl⟩ := own
        exact written.varint_lt here holds
      · exact ih there

theorem Timestamp.seconds_lt
    (encoded : Encodes maxDepth (Merged Timestamp.Stated 1) (some time) bytes) :
    time.seconds < limit 64 := by
  obtain ⟨fields, -, merged⟩ := encoded
  cases merged with
  | present parts _ split whole =>
      rcases whole.seconds.absent_or_mem with zero | member
      · rw [zero]
        exact limit_pos 64
      · obtain ⟨field, among, holds⟩ := List.mem_map.mp member
        exact varint_lt_of_parts split (List.mem_of_mem_filter among) holds

/-! ## Rewards -/

/-- What a coin is worth in a denom: nothing if it is of another denom, or if its amount is no
number of 128 bits. -/
inductive CoinText.Worth (denom : Denom) (coin : CoinText) : Nat → Prop
  | native {amount : Nat} (own : coin.denom = denom)
      (read : Digits.Signed coin.amount.toList amount) (fits : amount < limit 128) :
      Worth denom coin amount
  | foreign (other : coin.denom ≠ denom) : Worth denom coin 0
  | unreadable (wrong : ∀ amount < limit 128, ¬Digits.Signed coin.amount.toList amount) :
      Worth denom coin 0

theorem CoinText.worth_exists (denom : Denom) (coin : CoinText) :
    ∃ amount, coin.Worth denom amount := by
  by_cases own : coin.denom = denom
  · by_cases readable : ∃ amount < limit 128, Digits.Signed coin.amount.toList amount
    · obtain ⟨amount, fits, read⟩ := readable
      exact ⟨amount, .native own read fits⟩
    · exact ⟨0, .unreadable fun amount fits read => readable ⟨amount, fits, read⟩⟩
  · exact ⟨0, .foreign own⟩

theorem worths_exist (denom : Denom) (coins : List CoinText) :
    ∃ amounts, List.Forall₂ (CoinText.Worth denom) coins amounts := by
  induction coins with
  | nil => exact ⟨[], .nil⟩
  | cons coin coins ih =>
      obtain ⟨amount, own⟩ := coin.worth_exists denom
      obtain ⟨amounts, later⟩ := ih
      exact ⟨amount :: amounts, .cons own later⟩

theorem total_worths (worths : List.Forall₂ (CoinText.Worth denom) coins amounts) :
    total ((coins.filter fun coin => coin.denom == denom).filterMap fun coin =>
      Digits.readSigned? 128 coin.amount.toList) = total amounts := by
  induction worths with
  | nil => rfl
  | @cons coin amount _ _ own later ih =>
      cases own with
      | native own read fits =>
          have readable := Digits.readSigned?_eq_some.mpr ⟨read, fits⟩
          simp [own, readable, ih]
      | foreign other => simp [other, ih]
      | unreadable wrong =>
          have unread : Digits.readSigned? 128 coin.amount.toList = none := by
            refine Option.eq_none_iff_forall_ne_some.mpr fun amount read => ?_
            obtain ⟨signed, fits⟩ := Digits.readSigned?_eq_some.mp read
            exact wrong amount fits signed
          by_cases own : coin.denom = denom <;> simp [own, unread, ih]

theorem rewardOf_eq (worths : List.Forall₂ (CoinText.Worth denom) coins amounts) :
    rewardOf denom coins = min (total amounts) (Width.max 128) := by
  rw [rewardOf, total_worths worths, clamp]

/-! ## Entries -/

/-- What an entry reports: stake is free at a time that is not before 1970, or a reward, which
stops at the largest amount, or nothing. -/
inductive Entry.Tells (denom : Denom) (entry : Entry) : Option Receipt → Prop
  | unbonds {time : Timestamp} {seconds : Nat} (url : entry.typeUrl ∈ undelegateUrls)
      (encoded : Encodes maxDepth (Merged Timestamp.Stated 1) (some time) entry.value)
      (due : time.since = seconds) : Tells denom entry (some (.unbondsAt seconds))
  | untimed {found : Option Timestamp} (url : entry.typeUrl ∈ undelegateUrls)
      (encoded : Encodes maxDepth (Merged Timestamp.Stated 1) found entry.value)
      (early : ∀ time ∈ found, time.since < 0) : Tells denom entry none
  | withdraws {coins : List CoinText} {amounts : List Nat} (url : entry.typeUrl ∈ withdrawUrls)
      (encoded : Encodes maxDepth (Repeated CoinText.Stated 1) coins entry.value)
      (worths : List.Forall₂ (CoinText.Worth denom) coins amounts) :
      Tells denom entry (some (.rewards (min (total amounts) (Width.max 128))))
  | other (undelegates : entry.typeUrl ∉ undelegateUrls)
      (withdraws : entry.typeUrl ∉ withdrawUrls) : Tells denom entry none

/-- A response that counts and is no message. -/
inductive Entry.Garbled (entry : Entry) : Prop
  | undelegation (url : entry.typeUrl ∈ undelegateUrls)
      (garbage : ∀ found, ¬Encodes maxDepth (Merged Timestamp.Stated 1) found entry.value)
  | withdrawal (url : entry.typeUrl ∈ withdrawUrls)
      (garbage : ∀ coins, ¬Encodes maxDepth (Repeated CoinText.Stated 1) coins entry.value)

theorem urls_apart {url : String} (withdraws : url ∈ withdrawUrls) : url ∉ undelegateUrls := by
  simp only [withdrawUrls, List.mem_cons, List.not_mem_nil, or_false] at withdraws
  rcases withdraws with rfl | rfl <;> decide

theorem undelegated_eq_some {found : Option Timestamp} :
    merge? maxDepth undelegatedStep none bytes = some found ↔
      Encodes maxDepth (Merged Timestamp.Stated 1) found bytes :=
  merge?_eq_some undelegated_fold

theorem withdrawn_eq_some :
    merge? maxDepth withdrawnStep [] bytes = some coins ↔
      Encodes maxDepth (Repeated CoinText.Stated 1) coins bytes :=
  merge?_eq_some withdrawn_fold

theorem receipt?_eq_some : receipt? denom entry = some told ↔ entry.Tells denom told := by
  constructor
  · intro read
    unfold receipt? at read
    split at read
    · rename_i url
      obtain ⟨found, merged, rfl⟩ := Option.map_eq_some_iff.mp read
      have encoded := undelegated_eq_some.mp merged
      cases found with
      | none => exact .untimed url encoded nofun
      | some time =>
          by_cases early : time.seconds < limit 63
          · rw [Option.filter_some, if_pos (decide_eq_true early)]
            exact .unbonds url encoded (Timestamp.since_of_lt early)
          · rw [Option.filter_some, if_neg (by simpa using early)]
            refine .untimed url encoded ?_
            rintro _ ⟨⟩
            exact Timestamp.since_of_le (Nat.le_of_not_lt early) (Timestamp.seconds_lt encoded)
    · rename_i notUndelegation
      split at read
      · rename_i url
        obtain ⟨coins, merged, rfl⟩ := Option.map_eq_some_iff.mp read
        obtain ⟨amounts, worths⟩ := worths_exist denom coins
        rw [rewardOf_eq worths]
        exact .withdraws url (withdrawn_eq_some.mp merged) worths
      · rename_i notWithdrawal
        cases read
        exact .other notUndelegation notWithdrawal
  · intro tells
    cases tells with
    | @unbonds time seconds url encoded due =>
        have early : time.seconds < limit 63 := by
          refine Nat.lt_of_not_le fun late => ?_
          have before := Timestamp.since_of_le late (Timestamp.seconds_lt encoded)
          omega
        rw [Timestamp.since_of_lt early, Int.ofNat_inj] at due
        subst due
        simp [receipt?, url, undelegated_eq_some.mpr encoded, early]
    | @untimed found url encoded early =>
        have unusable : found.filter (fun time => time.seconds < limit 63) = none := by
          refine Option.filter_eq_none_iff.mpr fun time held due => ?_
          have before := early time held
          rw [Timestamp.since_of_lt (of_decide_eq_true due)] at before
          omega
        simp [receipt?, url, undelegated_eq_some.mpr encoded, unusable]
    | withdraws url encoded worths =>
        simp [receipt?, urls_apart url, url, withdrawn_eq_some.mpr encoded, rewardOf_eq worths]
    | other undelegates withdraws => simp [receipt?, undelegates, withdraws]

theorem receipt?_eq_none : receipt? denom entry = none ↔ entry.Garbled := by
  constructor
  · intro refused
    unfold receipt? at refused
    split at refused
    · rename_i url
      refine .undelegation url fun found encoded => ?_
      rw [undelegated_eq_some.mpr encoded] at refused
      cases refused
    · split at refused
      · rename_i url
        refine .withdrawal url fun coins encoded => ?_
        rw [withdrawn_eq_some.mpr encoded] at refused
        cases refused
      · cases refused
  · intro garbled
    cases garbled with
    | undelegation url garbage =>
        have refused : merge? maxDepth undelegatedStep none entry.value = none :=
          Option.eq_none_iff_forall_ne_some.mpr fun found read =>
            garbage found (undelegated_eq_some.mp read)
        simp [receipt?, url, refused]
    | withdrawal url garbage =>
        have refused : merge? maxDepth withdrawnStep [] entry.value = none :=
          Option.eq_none_iff_forall_ne_some.mpr fun coins read =>
            garbage coins (withdrawn_eq_some.mp read)
        simp [receipt?, urls_apart url, url, refused]

/-! ## Reports -/

theorem report_eq_some {report : Report} :
    merge? maxDepth Report.step ⟨[], []⟩ bytes = some report ↔
      Encodes maxDepth Report.Stated report bytes :=
  merge?_eq_some Report.fold

theorem receipts?_of_encodes {report : Report}
    (encoded : Encodes maxDepth Report.Stated report bytes) :
    receipts? denom bytes =
      ((report.responses ++ report.legacy).mapM (receipt? denom)).map List.reduceOption := by
  rw [receipts?, report_eq_some.mpr encoded, Option.map_eq_bind]
  rfl

/-- From any encoding of a report is read what its entries tell, current responses first and each
in order; nothing is read exactly where an entry is garbled, and fields nobody knows change
neither.  The usual bytes of a report are an encoding of it, and bytes that encode no report are
refused. -/
theorem reports_recovered (denom : Denom) (bytes : Bytes) :
    (∀ report : Report, Encodes maxDepth Report.Stated report bytes →
      (∀ receipts, receipts? denom bytes = some receipts ↔
        ∃ told, List.Forall₂ (Entry.Tells denom) (report.responses ++ report.legacy) told ∧
          receipts = told.reduceOption) ∧
      (receipts? denom bytes = none ↔
        ∃ entry ∈ report.responses ++ report.legacy, entry.Garbled) ∧
      ∀ bytes', ReportExtends bytes bytes' → receipts? denom bytes' = receipts? denom bytes) ∧
    (∀ report : Report, report.put.length < limit 64 →
      Encodes maxDepth Report.Stated report report.put) ∧
    ((∀ report, ¬Encodes maxDepth Report.Stated report bytes) →
      receipts? denom bytes = none) := by
  refine ⟨fun report encoded => ⟨fun receipts => ?_, ?_, fun bytes' more => ?_⟩,
    fun report fits => Report.encodes_put fits, fun garbage => ?_⟩
  · simp only [receipts?_of_encodes encoded, Option.map_eq_some_iff, mapM_eq_some,
      receipt?_eq_some, eq_comm (a := receipts)]
  · rw [receipts?_of_encodes encoded, Option.map_eq_none_iff, mapM_eq_none]
    simp only [receipt?_eq_none]
  · exact (receipts?_extended denom more).symm
  · have refused : merge? maxDepth Report.step ⟨[], []⟩ bytes = none :=
      Option.eq_none_iff_forall_ne_some.mpr fun report read =>
        garbage report (report_eq_some.mp read)
    rw [receipts?, refused]
    rfl

def sampleReport : Report where
  legacy := [⟨"/cosmos.distribution.v1beta1.MsgWithdrawDelegatorReward",
    putCoins [⟨"uatom", "150"⟩, ⟨"uosmo", "3"⟩]⟩]
  responses := [⟨"/cosmos.staking.v1beta1.MsgUndelegateResponse",
    putCompletion (some ⟨1700000000, 5⟩)⟩]

def garbledReport : Report where
  legacy := []
  responses := [⟨"/cosmos.staking.v1beta1.MsgUndelegateResponse", [255]⟩]

/-- A time and a reward are read, also with a field of number 3 in front, while neither a garbled
response nor a cut off report is read. -/
theorem reports_recovered_sample :
    Encodes maxDepth Report.Stated sampleReport sampleReport.put ∧
      receipts? "uatom" sampleReport.put = some [.unbondsAt 1700000000, .rewards 150] ∧
      ReportExtends sampleReport.put (putNumber 3 7 ++ sampleReport.put) ∧
      receipts? "uatom" (putNumber 3 7 ++ sampleReport.put) =
        some [.unbondsAt 1700000000, .rewards 150] ∧
      receipts? "uatom" garbledReport.put = none ∧
      receipts? "uatom" [255, 255, 255] = none := by
  have encoded : Encodes maxDepth Report.Stated sampleReport sampleReport.put :=
    (reports_recovered "uatom" []).2.1 sampleReport (by decide +kernel)
  obtain ⟨reads, -, ignores⟩ := (reports_recovered "uatom" sampleReport.put).1 _ encoded
  have unbonds : Entry.Tells "uatom" ⟨"/cosmos.staking.v1beta1.MsgUndelegateResponse",
      putCompletion (some ⟨1700000000, 5⟩)⟩ (some (.unbondsAt 1700000000)) := by
    refine .unbonds (by decide) (encodes_putCompletion ?_) (Timestamp.since_of_lt (by decide))
    rintro _ ⟨⟩
    exact ⟨by decide, by decide⟩
  have withdraws : Entry.Tells "uatom" ⟨"/cosmos.distribution.v1beta1.MsgWithdrawDelegatorReward",
      putCoins [⟨"uatom", "150"⟩, ⟨"uosmo", "3"⟩]⟩ (some (.rewards 150)) := by
    have amount : Digits.readSigned? 128 "150".toList = some 150 := by decide +kernel
    obtain ⟨signed, fits⟩ := Digits.readSigned?_eq_some.mp amount
    have worths : List.Forall₂ (CoinText.Worth "uatom") [⟨"uatom", "150"⟩, ⟨"uosmo", "3"⟩]
        [150, 0] := .cons (.native rfl signed fits) (.cons (.foreign (by decide)) .nil)
    exact .withdraws (by decide) (encodes_putCoins (by decide +kernel)) worths
  have read : receipts? "uatom" sampleReport.put = some [.unbondsAt 1700000000, .rewards 150] :=
    (reads _).mpr ⟨_, .cons unbonds (.cons withdraws .nil), rfl⟩
  have more : ReportExtends sampleReport.put (putNumber 3 7 ++ sampleReport.put) := by
    obtain ⟨fields, written, -⟩ := encoded
    have front : Written maxDepth (sparing .varint 0 3 7) (putNumber 3 7) :=
      written_putNumber ⟨by decide, by decide⟩ (by decide)
    exact ⟨fields, _, written, front.append written, .more (by decide) (.self fields)⟩
  have garbled : receipts? "uatom" garbledReport.put = none := by
    refine (((reports_recovered "uatom" garbledReport.put).1 garbledReport
      (Report.encodes_put (by decide +kernel))).2.1).mpr ⟨_, List.mem_singleton_self _, ?_⟩
    refine .undelegation (by decide) fun found encoded => ?_
    cases undelegated_eq_some.mpr encoded
  have cutOff : receipts? "uatom" [255, 255, 255] = none := by
    refine (reports_recovered "uatom" [255, 255, 255]).2.2 fun report encoded => ?_
    cases report_eq_some.mpr encoded
  exact ⟨encoded, read, more, (ignores _ more).trans read, garbled, cutOff⟩

end LiquidStaking.Wire
