import ToolchainRelease.Proofs.Text.Layout
import ToolchainRelease.Text.Cursor

/-! Tokens that are taken one at a time. They are the tokens that a text is laid out from, and then
its end for ever, whether or not they were looked at before they are taken. -/
namespace ToolchainRelease.Text

namespace Unread

def scan (u : Unread) : Scan := ((Scanner.mk .blank u.position []).feedAll u.bytes).close

/-- What is told of what there is to read, and what remains. A fault ends a scan, so that nothing
can be said of what comes after it. -/
inductive Tells : Scan → Except Fault Next × Unread → Prop
  | token {u : Unread} {t : Placed} {ts : List Placed} {e : Ending} (rest : u.scan = ⟨ts, e⟩) :
      Tells ⟨t :: ts, e⟩ (.ok (.token t), u)
  | finished {u : Unread} {q : Position} (rest : u.scan = ⟨[], .finished q⟩) :
      Tells ⟨[], .finished q⟩ (.ok (.finished q), u)
  | broken {u : Unread} {start : Position} {f : Fault} : Tells ⟨[], .broken start f⟩ (.error f, u)

lemma Tells.eq_of_token {s : Scan} {t : Placed} {u : Unread} (h : Tells s (.ok (.token t), u)) :
    s = ⟨t :: u.scan.tokens, u.scan.ending⟩ := by
  cases h with
  | token rest => rw [rest]

lemma Tells.eq_of_finished {s : Scan} {q : Position} {u : Unread}
    (h : Tells s (.ok (.finished q), u)) : s = ⟨[], .finished q⟩ := by
  cases h with
  | finished => rfl

end Unread

namespace Mode
open Unread

/-- A byte that completes a token, and is not the one after a word, leaves nothing begun. -/
lemma eq_blank_of_step {m m' : Mode} {p : Position} {b : UInt8} {t : Placed} {ts : List Placed}
    (hword : m.wordBefore? b = none) (h : m.step p b = (t :: ts, m')) : ts = [] ∧ m' = .blank := by
  have hmoves := m.step_moves p b
  rw [h] at hmoves
  cases hmoves with
  | mark => exact ⟨rfl, rfl⟩
  | endLiteral => exact ⟨rfl, rfl⟩
  | @endWord start bytes _ _ after =>
    have hbyte : isWordByte b = true := by
      by_contra hother
      simp [wordBefore?, hother] at hword
    simp [step, hbyte] at h

/-- At the end of the text a word is complete, and what else has been begun is at fault. -/
lemma tells_at_end (m : Mode) (p : Position) : Tells (Scanner.mk m p []).close (m.next p []) := by
  cases m with
  | blank => exact .finished rfl
  | comment => exact .finished rfl
  | word => exact .token rfl
  | _ => exact .broken

/-- Reading on tells the first token of what the scanner reads from there on. -/
theorem tells_next (m : Mode) (p : Position) (bs : List UInt8) :
    Tells ((Scanner.mk m p []).feedAll bs).close (m.next p bs) := by
  induction bs generalizing m p with
  | nil => exact m.tells_at_end p
  | cons b bs ih =>
    unfold next
    cases hword : m.wordBefore? b with
    | some t =>
      unfold wordBefore? at hword
      split at hword
      · next start read =>
        split_ifs at hword with hbyte
        cases hword
        have ends : ∀ c ∈ (b :: bs).head?, isWordByte c = false := by
          intro c hc
          cases hc
          simpa using hbyte
        -- The word is complete, and `b` is left for the next token.
        rw [close_after_word ends, Scanner.close_feedAll_tokens]
        exact .token rfl
      · cases hword
    | none =>
      dsimp only
      split
      · next t ts m' hstep =>
        obtain ⟨rfl, rfl⟩ := eq_blank_of_step hword hstep
        have hfeed : (Scanner.mk m p []).feed b = ⟨.blank, p.advance b, [t]⟩ := by
          simp [Scanner.feed, hstep]
        rw [Scanner.feedAll_cons, hfeed, Scanner.close_feedAll_tokens]
        exact .token rfl
      · next start f hstep =>
        have hfeed : (Scanner.mk m p []).feed b = ⟨.failed start f, p.advance b, []⟩ := by
          simp [Scanner.feed, hstep]
        rw [Scanner.feedAll_cons, hfeed, feedAll_failed]
        exact .broken
      · next m' _ hstep =>
        have hfeed : (Scanner.mk m p []).feed b = ⟨m', p.advance b, []⟩ := by
          simp [Scanner.feed, hstep]
        rw [Scanner.feedAll_cons, hfeed]
        exact ih m' (p.advance b)

end Mode

namespace Unread

lemma tells_next (u : Unread) : Tells u.scan u.next := Mode.blank.tells_next u.position u.bytes

def answers (u : Unread) : Nat → List (Except Fault Next)
  | 0 => []
  | n + 1 => u.next.1 :: u.next.2.answers n

lemma length_answers (u : Unread) (n : Nat) : (u.answers n).length = n := by
  induction n generalizing u with
  | zero => rfl
  | succ n ih => simp [answers, ih]

lemma answers_prefix (u : Unread) {m n : Nat} (h : m ≤ n) : u.answers m <+: u.answers n := by
  induction m generalizing u n with
  | zero => exact List.nil_prefix
  | succ m ih =>
    obtain ⟨k, rfl⟩ := Nat.exists_eq_add_of_le' h
    exact List.prefix_cons_inj _ |>.2 (ih _ (Nat.le_of_succ_le_succ h))

section Finished

variable {u : Unread} {ts : List Placed} {q : Position}

lemma answers_at_end (h : u.scan = ⟨[], .finished q⟩) (n : Nat) :
    u.answers n = List.replicate n (.ok (.finished q)) := by
  induction n generalizing u with
  | zero => rfl
  | succ n ih =>
    have htells := u.tells_next
    rw [h] at htells
    rw [answers, List.replicate_succ]
    cases hnext : u.next
    rw [hnext] at htells
    cases htells with
    | finished rest => rw [ih rest]

/-- What is read to its end is told token by token, and then its end for ever. -/
theorem answers_of_scan (h : u.scan = ⟨ts, .finished q⟩) (n : Nat) :
    u.answers n = ((ts.map Next.token ++ List.replicate n (Next.finished q)).take n).map .ok := by
  induction ts generalizing u n with
  | nil => simp [answers_at_end h]
  | cons t ts ih =>
    cases n with
    | zero => rfl
    | succ n =>
      have htells := u.tells_next
      rw [h] at htells
      rw [answers]
      cases hnext : u.next
      rw [hnext] at htells
      cases htells with
      | token rest =>
        rw [ih rest]
        have hcount : n ≤ n + 1 + ts.length := by omega
        simp [List.take_append, hcount]

/-- What is told token by token, with the end after them, is read to this end. -/
theorem scan_of_answers
    (h : u.answers (ts.length + 1) = (ts.map Next.token ++ [Next.finished q]).map .ok) :
    u.scan = ⟨ts, .finished q⟩ := by
  induction ts generalizing u with
  | nil =>
    have hnext : u.next = (.ok (.finished q), u.next.2) := Prod.ext (List.cons.inj h).1 rfl
    exact Tells.eq_of_finished (hnext ▸ u.tells_next)
  | cons t ts ih =>
    have hnext : u.next = (.ok (.token t), u.next.2) := Prod.ext (List.cons.inj h).1 rfl
    have hrest : u.next.2.scan = ⟨ts, .finished q⟩ := ih (List.cons.inj h).2
    have htells := u.tells_next
    rw [hnext] at htells
    rw [htells.eq_of_token, hrest]

end Finished

end Unread

namespace Cursor

/-- The cursor reads on from `u`, and may have looked at what comes next. -/
inductive Looks : Cursor → Unread → Prop
  | unseen {u : Unread} : Looks ⟨u, none⟩ u
  | seen {u rest : Unread} {n : Next} (next : u.next = (.ok n, rest)) : Looks ⟨rest, some n⟩ u

namespace Looks

variable {c : Cursor} {u : Unread}

lemma next (h : c.Looks u) : c.next = (u.next.1, ⟨u.next.2, none⟩) := by
  cases h with
  | unseen => rfl
  | seen next =>
    rw [next]
    rfl

/-- Looking again shows the same, and takes nothing but a fault. -/
lemma peek (h : c.Looks u) : (∃ n c', c.peek = (.ok n, c') ∧ c'.Looks u) ∨
    ∃ f rest, u.next = (.error f, rest) ∧ c.peek = (.error f, ⟨rest, none⟩) := by
  cases h with
  | @seen _ rest n next => exact .inl ⟨n, ⟨rest, some n⟩, rfl, .seen next⟩
  | unseen =>
    cases hnext : u.next with
    | mk answer rest =>
      cases answer with
      | ok n => exact .inl ⟨n, ⟨rest, some n⟩, by simp [Cursor.peek, hnext], .seen hnext⟩
      | error f => exact .inr ⟨f, rest, rfl, by simp [Cursor.peek, hnext]⟩

/-- What calls take are the first answers, one for each `next` and each fault that `peek` comes
upon. -/
theorem taken (h : c.Looks u) (calls : List Call) :
    ∃ n, calls.count .next ≤ n ∧ c.taken calls = u.answers n ∧
      ((∀ f, .error f ∉ c.taken calls) → n = calls.count .next) := by
  induction calls generalizing c u with
  | nil => exact ⟨0, Nat.le_refl 0, rfl, fun _ => rfl⟩
  | cons call calls ih =>
    cases call with
    | next =>
      have htaken : c.taken (.next :: calls) = u.next.1 :: Cursor.taken ⟨u.next.2, none⟩ calls := by
        rw [Cursor.taken, h.next]
      obtain ⟨n, hle, heq, hfaultless⟩ := ih (c := ⟨u.next.2, none⟩) .unseen
      refine ⟨n + 1, ?_, ?_, fun hnone => ?_⟩
      · simpa using hle
      · rw [htaken, heq, Unread.answers]
      · have := hfaultless fun f hf => hnone f (htaken ▸ List.mem_cons_of_mem _ hf)
        simpa using this
    | peek =>
      rcases h.peek with ⟨n, c', hpeek, hlooks⟩ | ⟨f, rest, hnext, hpeek⟩
      · have htaken : c.taken (.peek :: calls) = c'.taken calls := by
          rw [Cursor.taken, hpeek]
        rw [htaken]
        simpa using ih hlooks
      · have htaken : c.taken (.peek :: calls) = .error f :: Cursor.taken ⟨rest, none⟩ calls := by
          rw [Cursor.taken, hpeek]
        -- The fault is not kept, so this `peek` takes an answer as `next` would.
        obtain ⟨n, hle, heq, -⟩ := ih (c := ⟨rest, none⟩) .unseen
        refine ⟨n + 1, ?_, ?_, fun hnone => absurd ?_ (hnone f)⟩
        · simp only [List.count_cons_of_ne, ne_eq, reduceCtorEq, not_false_eq_true]
          omega
        · rw [htaken, heq, Unread.answers, hnext]
        · rw [htaken]
          exact List.mem_cons_self

lemma taken_of_next (h : c.Looks u) {calls : List Call} (hnext : ∀ call ∈ calls, call = .next) :
    c.taken calls = u.answers calls.length := by
  induction calls generalizing c u with
  | nil => rfl
  | cons call calls ih =>
    obtain rfl : call = .next := hnext call List.mem_cons_self
    rw [Cursor.taken, h.next]
    exact congrArg _ (ih .unseen fun call hcall => hnext call (List.mem_cons_of_mem _ hcall))

lemma taken_filter (h : c.Looks u) (calls : List Call) :
    c.taken (calls.filter (· = .next)) = u.answers (calls.count .next) := by
  rw [h.taken_of_next (by simp), List.count_eq_length_filter]
  rfl

variable {ts : List Placed} {q : Position}

lemma taken_of_scan (h : c.Looks u) (hscan : u.scan = ⟨ts, .finished q⟩) (calls : List Call) :
    c.taken calls = ((ts.map Next.token ++ List.replicate (calls.count .next)
      (Next.finished q)).take (calls.count .next)).map .ok := by
  obtain ⟨n, -, heq, hcount⟩ := h.taken calls
  rw [Unread.answers_of_scan hscan] at heq
  have hfaultless : ∀ f, .error f ∉ c.taken calls := by
    intro f hf
    rw [heq] at hf
    obtain ⟨next, -, hnext⟩ := List.mem_map.1 hf
    cases hnext
  rw [heq, hcount hfaultless]

lemma scan_of_taken (h : c.Looks u) {calls : List Call}
    (htaken : c.taken calls = (ts.map Next.token ++ [Next.finished q]).map .ok) :
    u.scan = ⟨ts, .finished q⟩ := by
  obtain ⟨n, -, heq, -⟩ := h.taken calls
  rw [htaken] at heq
  have hlength : n = ts.length + 1 := by
    have := congrArg List.length heq
    simpa [Unread.length_answers] using this.symm
  rw [hlength] at heq
  exact Unread.scan_of_answers heq.symm

end Looks

/-- Tokens are taken exactly as a text is laid out from them, and then its end for ever. A text
whose tokens are taken up to its end is laid out from them, with its words as long as possible.
Looking changes nothing of what is taken, but a fault is told to the call that comes upon it. -/
theorem taken_exact (text : String) :
    (∀ ts, LaidOut false [] (utf8 text) ts → ∀ calls, (start text).taken calls =
      ((ts.map Next.token ++ List.replicate (calls.count .next)
        (Next.finished (placeAfter (utf8 text)))).take (calls.count .next)).map .ok) ∧
    (∀ ts q calls, (start text).taken calls = (ts.map Next.token ++ [Next.finished q]).map .ok →
      LaidOut false [] (utf8 text) ts ∧ q = placeAfter (utf8 text) ∧
      ∀ w p, ⟨.word w, p⟩ ∈ ts → ∃ left right, utf8 text = left ++ (utf8 w ++ right) ∧
        p = placeAfter left ∧ ∀ b ∈ right.head?, isWordByte b = false) ∧
    (∀ calls, (start text).taken (calls.filter (· = .next)) <+: (start text).taken calls) ∧
    ∀ calls, (∀ f, .error f ∉ (start text).taken calls) →
      (start text).taken calls = (start text).taken (calls.filter (· = .next)) := by
  have hlooks : (start text).Looks (.start text) := .unseen
  refine ⟨fun ts hlaid calls => ?_, fun ts q calls htaken => ?_, fun calls => ?_,
    fun calls hfaultless => ?_⟩
  · exact hlooks.taken_of_scan (scan_eq_iff_laidOut.2 ⟨hlaid, rfl⟩) calls
  · obtain ⟨hlaid, hplace⟩ := scan_eq_iff_laidOut.1 (hlooks.scan_of_taken htaken)
    exact ⟨hlaid, hplace, fun w p hmem => hlaid.longest_word hmem⟩
  · obtain ⟨n, hle, heq, -⟩ := hlooks.taken calls
    rw [hlooks.taken_filter, heq]
    exact Unread.answers_prefix _ hle
  · obtain ⟨n, -, heq, hcount⟩ := hlooks.taken calls
    rw [hlooks.taken_filter, heq, hcount hfaultless]

/-- What looks like a token in a comment or in a literal is none, and `é` is two columns wide. -/
theorem taken_exact_of_commented :
    ∃ ts : List Placed, ts = [⟨.word "ab", ⟨1, 1⟩⟩, ⟨.word "c", ⟨2, 1⟩⟩, ⟨.colon, ⟨2, 2⟩⟩,
        ⟨.literal [35, 195, 169], ⟨2, 3⟩⟩, ⟨.word "d", ⟨2, 8⟩⟩] ∧
      LaidOut false [] (utf8 "ab#:é\nc:'#é'd#'") ts ∧
      (∃ left right, utf8 "ab#:é\nc:'#é'd#'" = left ++ (utf8 "d" ++ right) ∧
        ⟨2, 8⟩ = placeAfter left ∧ ∀ b ∈ right.head?, isWordByte b = false) ∧
      (start "ab#:é\nc:'#é'd#'").taken
          [.peek, .next, .next, .peek, .peek, .next, .next, .next, .next, .peek, .next] =
        (ts.map Next.token ++ [Next.finished ⟨2, 11⟩, Next.finished ⟨2, 11⟩]).map .ok ∧
      (start "ab#:é\nc:'#é'd#'").taken [.peek, .next, .peek, .next, .peek] =
        (start "ab#:é\nc:'#é'd#'").taken [.next, .next] := by
  obtain ⟨takes, laidOut, -, looking⟩ := taken_exact "ab#:é\nc:'#é'd#'"
  obtain ⟨hlaid, hplace, hwords⟩ := laidOut
    [⟨.word "ab", ⟨1, 1⟩⟩, ⟨.word "c", ⟨2, 1⟩⟩, ⟨.colon, ⟨2, 2⟩⟩,
      ⟨.literal [35, 195, 169], ⟨2, 3⟩⟩, ⟨.word "d", ⟨2, 8⟩⟩] ⟨2, 11⟩
    [.next, .next, .next, .next, .next, .next] (by rfl)
  refine ⟨_, rfl, hlaid, hwords "d" ⟨2, 8⟩ (by simp), ?_, ?_⟩
  · rw [takes _ hlaid, ← hplace]
    rfl
  · refine looking _ fun f hf => ?_
    rw [takes _ hlaid] at hf
    obtain ⟨next, -, hnext⟩ := List.mem_map.1 hf
    cases hnext

end Cursor

end ToolchainRelease.Text
