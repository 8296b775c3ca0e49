import MarketDag.Document.ApiSpec

/-!
# Outcome points

What a product settles on: in general, the outcome of an event, or a number of a series observed at
a date.
-/

namespace MarketDag

/-- What all outcome points have. -/
structure OutcomePoint where
  fspType : String
deriving DecidableEq, Repr

/-- The outcome of an event. -/
structure EventPoint extends OutcomePoint where
  outcome : String
deriving DecidableEq, Repr

/-- A number of a series. -/
structure Observation where
  /-- The date that the number is about. -/
  reference : Date
  /-- The date on which it is published, if that is known. -/
  release : Option Date := none

/-- The observation of a number of a series. -/
structure SeriesPoint extends OutcomePoint where
  observation : Observation

/-! ## Form -/

instance : Shaped OutcomePoint where
  shape := .record "BaseOutcomePoint" (.required "fsp_type" (.leaf .text) .nil)
  toValue p := (p.fspType, ())
  ofValue
    | (fspType, ()) => ⟨fspType⟩

instance : Shaped EventPoint where
  shape :=
    .record "EventOutcomePoint" <|
      .required "fsp_type" (.leaf .text) <|
      .required "outcome" (.leaf .text) .nil
  toValue p := (p.fspType, p.outcome, ())
  ofValue
    | (fspType, outcome, ()) => ⟨⟨fspType⟩, outcome⟩

instance : Shaped Observation where
  shape :=
    .record "Observation" <|
      .required "reference_date" (.leaf .date) <|
      .optional "release_date" (.leaf .date) .nil
  toValue o := (o.reference, o.release, ())
  ofValue
    | (reference, release, ()) => ⟨reference, release⟩

instance : Shaped SeriesPoint where
  shape :=
    .record "TimeSeriesOutcomePoint" <|
      .required "fsp_type" (.leaf .text) <|
      .required "observation" (Shaped.shape Observation) .nil
  toValue p := (p.fspType, Shaped.toValue p.observation, ())
  ofValue
    | (fspType, observation, ()) => ⟨⟨fspType⟩, Shaped.ofValue observation⟩

end MarketDag
