import Mathlib.Data.Rat.Defs
import Mathlib.Algebra.Order.Ring.Rat

/-!
The messages of `mini2.proto` the nodes act on. Doubles are read as exact rationals, and
the fixed-width integers as unbounded ones.
-/

namespace Mini2.Proto

/-- The gRPC status codes. -/
inductive StatusCode
  | ok | cancelled | unknown | invalidArgument | deadlineExceeded | notFound | alreadyExists
  | permissionDenied | resourceExhausted | failedPrecondition | aborted | outOfRange
  | unimplemented | internal | unavailable | dataLoss | unauthenticated
  deriving DecidableEq

/-- A code as Python's `str` prints it. -/
def StatusCode.pyName : StatusCode → String
  | .ok => "StatusCode.OK"
  | .cancelled => "StatusCode.CANCELLED"
  | .unknown => "StatusCode.UNKNOWN"
  | .invalidArgument => "StatusCode.INVALID_ARGUMENT"
  | .deadlineExceeded => "StatusCode.DEADLINE_EXCEEDED"
  | .notFound => "StatusCode.NOT_FOUND"
  | .alreadyExists => "StatusCode.ALREADY_EXISTS"
  | .permissionDenied => "StatusCode.PERMISSION_DENIED"
  | .resourceExhausted => "StatusCode.RESOURCE_EXHAUSTED"
  | .failedPrecondition => "StatusCode.FAILED_PRECONDITION"
  | .aborted => "StatusCode.ABORTED"
  | .outOfRange => "StatusCode.OUT_OF_RANGE"
  | .unimplemented => "StatusCode.UNIMPLEMENTED"
  | .internal => "StatusCode.INTERNAL"
  | .unavailable => "StatusCode.UNAVAILABLE"
  | .dataLoss => "StatusCode.DATA_LOSS"
  | .unauthenticated => "StatusCode.UNAUTHENTICATED"

structure Status where
  code : StatusCode
  message : String
  deriving DecidableEq

structure Failure extends Status where
  failed : code ≠ .ok

/-- A typed row of the taxi dataset. -/
structure TaxiRow where
  vendorId : ℤ
  pickupDatetime : ℤ
  dropoffDatetime : ℤ
  passengerCount : ℤ
  tripDistance : ℚ
  ratecodeId : ℤ
  puLocationId : ℤ
  doLocationId : ℤ
  storeAndFwdFlag : Bool
  paymentType : ℤ
  fareAmount : ℚ
  extra : ℚ
  mtaTax : ℚ
  tipAmount : ℚ
  tollsAmount : ℚ
  improvementSurcharge : ℚ
  totalAmount : ℚ
  deriving DecidableEq

/-- A range predicate on one column, named by the client. -/
structure RangePredicate where
  column : String
  low : ℚ
  high : ℚ
  inclusive : Bool
  deriving DecidableEq

/-- The value lies in the window of the predicate. -/
def RangePredicate.holds (p : RangePredicate) (v : ℚ) : Bool :=
  if p.inclusive then p.low ≤ v && v ≤ p.high else p.low < v && v < p.high

lemma RangePredicate.low_le {p : RangePredicate} {v : ℚ} (h : p.holds v = true) :
    p.low ≤ v := by
  unfold RangePredicate.holds at h
  split at h <;> simp only [Bool.and_eq_true, decide_eq_true_eq] at h
  · exact h.1
  · exact h.1.le

lemma RangePredicate.le_high {p : RangePredicate} {v : ℚ} (h : p.holds v = true) :
    v ≤ p.high := by
  unfold RangePredicate.holds at h
  split at h <;> simp only [Bool.and_eq_true, decide_eq_true_eq] at h
  · exact h.2
  · exact h.2.le

/-- A query; the predicates are combined by AND. -/
structure Query where
  predicates : List RangePredicate
  deriving DecidableEq

/-- What `ForwardQuery` answers. -/
structure QueryAck where
  accepted : Bool
  rejectReason : String
  deriving DecidableEq

end Mini2.Proto
