import PawnQuery.Proofs.Report.Buffer

/-!
# The history of a buffer

A buffer is given chunks, reads streams and is emptied, in any order.  Nothing of this shows in it
but the bytes delivered since it was last emptied: it holds the first of them, and it is marked as
cut off just if they are more than it has room for.
-/

namespace PawnQuery.Report

/-- What can happen to a buffer. -/
inductive Delivery where
  | chunk (bytes : List UInt8)
  | stream (source : ByteStream)
  | clear

namespace Delivery

def bytes : Delivery → List UInt8
  | chunk bytes => bytes
  | stream source => source.delivered
  | clear => []

def isClear : Delivery → Bool
  | clear => true
  | _ => false

/-- What happened since the buffer was last emptied. -/
def sinceClear (deliveries : List Delivery) : List Delivery :=
  (deliveries.reverse.takeWhile (!·.isClear)).reverse

/-- The bytes delivered since the buffer was last emptied, carriage returns left out. -/
def bytesSinceClear (deliveries : List Delivery) : List UInt8 :=
  withoutReturns ((sinceClear deliveries).flatMap bytes)

@[simp] theorem bytesSinceClear_nil : bytesSinceClear [] = [] := rfl

theorem bytesSinceClear_concat (deliveries : List Delivery) (last : Delivery) :
    bytesSinceClear (deliveries ++ [last]) =
      if last.isClear then [] else bytesSinceClear deliveries ++ withoutReturns last.bytes := by
  cases last <;> simp [bytesSinceClear, sinceClear, isClear, withoutReturns_append]

end Delivery

namespace ByteStream

/-- The reads before a stream ends: those before the first empty one, or else all. -/
def reads (stream : ByteStream) : List (List UInt8) :=
  stream.chunks.takeWhile (!·.isEmpty)

/-- Why reading a stream fails, unless an empty read ends it before. -/
def failure? (stream : ByteStream) : Option String :=
  match stream.ending with
  | .closed => none
  | .failed reason => if [] ∈ stream.chunks then none else some reason

end ByteStream

namespace Buffer

def receive (b : Buffer) : Delivery → Buffer
  | .chunk bytes => b.push bytes
  | .stream source => (b.fill source).1
  | .clear => b.clear

/-! ## Reading streams -/

/-- To read a stream is to push its reads one by one. -/
theorem fillFrom_eq (b : Buffer) (ending : StreamEnd) (total : Nat) (chunks : List (List UInt8)) :
    b.fillFrom ending total chunks =
      ((⟨chunks, ending⟩ : ByteStream).reads.foldl push b,
        match (⟨chunks, ending⟩ : ByteStream).failure? with
        | none => .ok (total + (⟨chunks, ending⟩ : ByteStream).reads.flatten.length)
        | some reason => .error reason) := by
  induction chunks generalizing b total with
  | nil => cases ending <;> rfl
  | cons chunk rest inductionHypothesis =>
    cases chunk with
    | nil => cases ending <;> simp [fillFrom, ByteStream.failure?, ByteStream.reads]
    | cons byte chunk =>
      have failure : (⟨(byte :: chunk) :: rest, ending⟩ : ByteStream).failure? =
          (⟨rest, ending⟩ : ByteStream).failure? := by
        cases ending <;> simp [ByteStream.failure?]
      have reads : (⟨(byte :: chunk) :: rest, ending⟩ : ByteStream).reads =
          (byte :: chunk) :: (⟨rest, ending⟩ : ByteStream).reads := by
        simp [ByteStream.reads]
      rw [fillFrom, inductionHypothesis, failure, reads, List.foldl_cons, List.flatten_cons,
        List.length_append, Nat.add_assoc]
      simp

theorem foldl_push (b : Buffer) (chunks : List (List UInt8)) :
    chunks.foldl push b = b.push chunks.flatten := by
  induction chunks generalizing b with
  | nil => rfl
  | cons chunk chunks inductionHypothesis =>
    rw [List.foldl_cons, inductionHypothesis, List.flatten_cons, push_append]

/-! ## What a buffer holds -/

/-- The buffer with this limit to which these bytes have been delivered. -/
def holding (limit : Nat) (bytes : List UInt8) : Buffer :=
  ⟨(bytes.take limit).toArray, limit, decide (limit < bytes.length)⟩

theorem pushByte_holding (limit : Nat) (bytes : List UInt8) (byte : UInt8) :
    (holding limit bytes).pushByte byte = holding limit (bytes ++ withoutReturns [byte]) := by
  by_cases returns : byte = 0x0D
  · simp [pushByte, returns, withoutReturns]
  · have kept : withoutReturns [byte] = [byte] := by simp [withoutReturns, returns]
    by_cases room : bytes.length < limit
    · have before : bytes.take limit = bytes := List.take_of_length_le (by omega)
      have after : (bytes ++ [byte]).take limit = bytes ++ [byte] :=
        List.take_of_length_le (by simp; omega)
      simp [holding, pushByte, returns, kept, room, before, after]
      omega
    · have full : (bytes ++ [byte]).take limit = bytes.take limit :=
        List.take_append_of_le_length (by omega)
      have size : min limit bytes.length = limit := by omega
      simp [holding, pushByte, returns, kept, full, size]
      omega

theorem push_holding (limit : Nat) (bytes chunk : List UInt8) :
    (holding limit bytes).push chunk = holding limit (bytes ++ withoutReturns chunk) := by
  induction chunk generalizing bytes with
  | nil => simp
  | cons byte chunk inductionHypothesis =>
    have apart : byte :: chunk = [byte] ++ chunk := rfl
    rw [apart, push_append, withoutReturns_append, ← List.append_assoc, ← inductionHypothesis,
      ← pushByte_holding]
    rfl

theorem receive_holding (limit : Nat) (deliveries : List Delivery) (last : Delivery) :
    (holding limit (Delivery.bytesSinceClear deliveries)).receive last =
      holding limit (Delivery.bytesSinceClear (deliveries ++ [last])) := by
  rw [Delivery.bytesSinceClear_concat]
  cases last with
  | chunk bytes => exact push_holding limit _ bytes
  | stream source =>
    show (fill _ source).1 = _
    rw [fill, fillFrom_eq, foldl_push, push_holding]
    rfl
  | clear => simp [receive, holding, clear, Delivery.isClear]

/-- A buffer is told by its limit and by the bytes delivered since it was last emptied. -/
theorem foldl_receive_holding (limit : Nat) (before deliveries : List Delivery) :
    deliveries.foldl receive (holding limit (Delivery.bytesSinceClear before)) =
      holding limit (Delivery.bytesSinceClear (before ++ deliveries)) := by
  induction deliveries generalizing before with
  | nil => simp
  | cons next deliveries inductionHypothesis =>
    rw [List.foldl_cons, receive_holding, inductionHypothesis, List.append_assoc]
    rfl

theorem holding_nil (limit : Nat) : holding limit [] = { limit := limit } := by
  simp [holding]

/-- Whatever happened to a buffer, it holds the first of the bytes delivered since it was last
emptied, carriage returns left out, as many as its limit allows, and it is marked as cut off just
if there were more.  To read a stream is to push its reads one by one; what is counted are the bytes
read, whatever became of them, and a failure leaves what was read before. -/
theorem holds_first_bytes_since_clear (limit : Nat) (deliveries : List Delivery) :
    let b := deliveries.foldl receive { limit := limit }
    let bytes := Delivery.bytesSinceClear deliveries
    (b.bytes.toList = bytes.take limit ∧ b.length ≤ limit ∧
        (b.truncated = true ↔ limit < bytes.length)) ∧
      ∀ (b : Buffer) (stream : ByteStream),
        b.fill stream =
          (stream.reads.foldl push b,
            match stream.failure? with
            | none => .ok stream.reads.flatten.length
            | some reason => .error reason) := by
  intro b bytes
  have holds : b = holding limit bytes := by
    have folded := foldl_receive_holding limit [] deliveries
    rwa [Delivery.bytesSinceClear_nil, holding_nil] at folded
  constructor
  · rw [holds]
    exact ⟨rfl, List.length_take_le limit bytes, by simp [holding]⟩
  · intro b stream
    rw [fill, fillFrom_eq]
    simp

end Buffer

end PawnQuery.Report
