import PackedLedger.Allocation.Basic
import PackedLedger.Allocation.Lookup
import PackedLedger.Attempt
import PackedLedger.Candidate
import PackedLedger.Command.Arguments
import PackedLedger.Command.Run
import PackedLedger.Command.Survey
import PackedLedger.Envelope
import PackedLedger.Json
import PackedLedger.Main
import PackedLedger.Number.Digits
import PackedLedger.Number.FixedPoint
import PackedLedger.Parameters
import PackedLedger.Position
import PackedLedger.Proofs.Acceptance
import PackedLedger.Proofs.AmountWords
import PackedLedger.Proofs.Answers
import PackedLedger.Proofs.Attempt
import PackedLedger.Proofs.BuiltInLayouts
import PackedLedger.Proofs.CappedYield
import PackedLedger.Proofs.Coherence
import PackedLedger.Proofs.CompoundYield
import PackedLedger.Proofs.Compounding
import PackedLedger.Proofs.Conversions
import PackedLedger.Proofs.DecimalReading
import PackedLedger.Proofs.DrawCoverage
import PackedLedger.Proofs.Draws
import PackedLedger.Proofs.EnvelopeStages
import PackedLedger.Proofs.ExponentialAccuracy
import PackedLedger.Proofs.ExponentialInverse
import PackedLedger.Proofs.FieldMagnitude
import PackedLedger.Proofs.FixedPrinting
import PackedLedger.Proofs.GridStages
import PackedLedger.Proofs.IndexMoves
import PackedLedger.Proofs.IndexSteps
import PackedLedger.Proofs.Logarithm
import PackedLedger.Proofs.LogarithmAccuracy
import PackedLedger.Proofs.Magnitude
import PackedLedger.Proofs.MintSawtooth
import PackedLedger.Proofs.Numerals
import PackedLedger.Proofs.Octaves
import PackedLedger.Proofs.PositionParts
import PackedLedger.Proofs.PriceMoves
import PackedLedger.Proofs.PriceRegions
import PackedLedger.Proofs.RangeReduction
import PackedLedger.Proofs.RateCeiling
import PackedLedger.Proofs.RateFloor
import PackedLedger.Proofs.RateRemedies
import PackedLedger.Proofs.Rearrangement
import PackedLedger.Proofs.Refusals
import PackedLedger.Proofs.Requirements
import PackedLedger.Proofs.ReserveGrowth
import PackedLedger.Proofs.ReserveScenarios
import PackedLedger.Proofs.Room
import PackedLedger.Proofs.ScalerShift
import PackedLedger.Proofs.Series
import PackedLedger.Proofs.SeriesRounds
import PackedLedger.Proofs.SlotFaults
import PackedLedger.Proofs.SlotOrder
import PackedLedger.Proofs.SurveyModes
import PackedLedger.Proofs.SweepReplay
import PackedLedger.Proofs.TangentAccuracy
import PackedLedger.Proofs.Valuation
import PackedLedger.Proofs.Visibility
import PackedLedger.Proofs.YieldSign
import PackedLedger.Random
import PackedLedger.Rejection
import PackedLedger.Reserve
import PackedLedger.Scaling
import PackedLedger.Settings
import PackedLedger.Settings.Path
import PackedLedger.Sweep
import PackedLedger.Text
import PackedLedger.Toml.Document
import PackedLedger.Toml.Lexical
import PackedLedger.Toml.Table
