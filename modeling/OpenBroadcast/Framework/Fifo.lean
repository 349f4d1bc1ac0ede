import OpenBroadcast.Framework.Run

namespace OpenBroadcast

variable {S E A B : Type}

/-- What the steps of a run put out, in their order. -/
def collect (step : S → E → S) (out : S → E → List A) : S → List E → List A
  | _,[] => []
  | s,e::es => out s e++collect step out (step s e) es

@[simp] theorem collect_nil (step : S → E → S) (out : S → E → List A) (s : S) :
    collect step out s [] = [] := rfl

@[simp] theorem collect_cons (step : S → E → S) (out : S → E → List A) (s : S) (e : E)
    (es : List E) :
    collect step out s (e::es) = out s e++collect step out (step s e) es := rfl

theorem collect_append (step : S → E → S) (out : S → E → List A) (s : S) (es es' : List E) :
    collect step out s (es++es') =
      collect step out s es++collect step out (es.foldl step s) es' := by
  induction es generalizing s with
  | nil => simp
  | cons e es ih => simp [ih]

/-- A step that does not look at the state puts out the same in every run. -/
theorem collect_eq_flatMap (step : S → E → S) (out : E → List A) (s : S) (es : List E) :
    collect step (fun _ e => out e) s es = es.flatMap out := by
  induction es generalizing s with
  | nil => simp
  | cons e es ih => simp [ih]

theorem Along.collect_congr {step : S → E → S} {ok : S → E → Prop} {out out' : S → E → List A}
    {s : S} {es : List E} (h : Along step ok s es) (hout : ∀ s e, ok s e → out s e = out' s e) :
    collect step out s es = collect step out' s es := by
  induction es generalizing s with
  | nil => rfl
  | cons e es ih => simp [hout s e h.1,ih h.2]

theorem collect_map (step : S → E → S) (out : S → E → List A) (f : A → B) (s : S) (es : List E) :
    (collect step out s es).map f = collect step (fun s e => (out s e).map f) s es := by
  induction es generalizing s with
  | nil => simp
  | cons e es ih => simp [ih]

theorem collect_filterMap (step : S → E → S) (out : S → E → List A) (f : A → Option B) (s : S)
    (es : List E) :
    (collect step out s es).filterMap f = collect step (fun s e => (out s e).filterMap f) s es := by
  induction es generalizing s with
  | nil => simp
  | cons e es ih => simp [List.filterMap_append,ih]

theorem collect_filter (step : S → E → S) (out : S → E → List A) (f : A → Bool) (s : S)
    (es : List E) :
    (collect step out s es).filter f = collect step (fun s e => (out s e).filter f) s es := by
  induction es generalizing s with
  | nil => simp
  | cons e es ih => simp [List.filter_append,ih]

theorem collect_sublist (step : S → E → S) {out out' : S → E → List A}
    (hout : ∀ s e, (out s e).Sublist (out' s e)) (s : S) (es : List E) :
    (collect step out s es).Sublist (collect step out' s es) := by
  induction es generalizing s with
  | nil => simp
  | cons e es ih => exact (hout s e).append (ih (step s e))

theorem append_eq_append_iff_of_sublist {l l' r r' : List A} (hl : l.Sublist l')
    (hr : r.Sublist r') : l++r = l'++r' ↔ l = l' ∧ r = r' := by
  constructor
  · intro h
    have total : l.length+r.length = l'.length+r'.length := by
      simpa using congrArg List.length h
    have left := hl.length_le
    have right := hr.length_le
    exact List.append_inj h (by omega)
  · rintro ⟨rfl,rfl⟩
    rfl

/-- Where steps put out at most what they should, nothing is missing at the end exactly if no step
left anything out. -/
theorem collect_eq_iff {step : S → E → S} {out out' : S → E → List A}
    (hout : ∀ s e, (out s e).Sublist (out' s e)) (s : S) (es : List E) :
    collect step out s es = collect step out' s es ↔
      Along step (fun s e => out s e = out' s e) s es := by
  induction es generalizing s with
  | nil => simp [Along]
  | cons e es ih =>
    have parts := append_eq_append_iff_of_sublist (hout s e) (collect_sublist step hout (step s e) es)
    simp only [collect_cons,Along,parts,ih (step s e)]

/-- A record to which every step adds what it puts out. -/
theorem Along.log {step : S → E → S} {ok : S → E → Prop} {s : S} {es : List E}
    (h : Along step ok s es) (log : S → List A) {out : S → E → List A}
    (hstep : ∀ s e, ok s e → log (step s e) = log s++out s e) :
    log (es.foldl step s) = log s++collect step out s es := by
  induction es generalizing s with
  | nil => simp
  | cons e es ih =>
    have rest := ih h.2
    simp [rest,hstep s e h.1]

/-- A queue to whose end a step puts and from whose front it takes: over a run, all that was in it
and was put into it has been taken in this order, or is in it still. -/
theorem Along.fifo {step : S → E → S} {ok : S → E → Prop} {s : S} {es : List E}
    (h : Along step ok s es) (queue : S → List A) {puts takes : S → E → List A}
    (hstep : ∀ s e, ok s e → queue s++puts s e = takes s e++queue (step s e)) :
    queue s++collect step puts s es = collect step takes s es++queue (es.foldl step s) := by
  induction es generalizing s with
  | nil => simp
  | cons e es ih =>
    have first := hstep s e h.1
    have rest := ih h.2
    calc queue s++collect step puts s (e::es)
        = (queue s++puts s e)++collect step puts (step s e) es := by simp
      _ = takes s e++(queue (step s e)++collect step puts (step s e) es) := by simp [first]
      _ = collect step takes s (e::es)++queue ((e::es).foldl step s) := by simp [rest]

/-- A list of at most `n` elements to whose end one is put and that gives up its first one when it
grows too long is the end of all that has been put to it. -/
theorem slide (l : List A) (n : Nat) (a : A) :
    (let window := l.drop (l.length-n)++[a]
      if window.length > n then window.tail else window) =
      (l++[a]).drop ((l++[a]).length-n) := by
  have push : l.drop (l.length-n)++[a] = (l++[a]).drop (l.length-n) :=
    (List.drop_append_of_le_length (Nat.sub_le _ _)).symm
  simp only [push,List.length_drop,List.length_append,List.length_singleton]
  by_cases hfull : n ≤ l.length
  · have hover : l.length+1-(l.length-n) > n := by omega
    have hstart : l.length+1-n = l.length-n+1 := by omega
    rw [if_pos hover,List.tail_drop,hstart]
  · have hroom : ¬ l.length+1-(l.length-n) > n := by omega
    have hstart : l.length+1-n = l.length-n := by omega
    rw [if_neg hroom,hstart]

end OpenBroadcast
