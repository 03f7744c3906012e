import ThreadCommissioner.Bystanders
import ThreadCommissioner.Checksums
import ThreadCommissioner.ConfigComments
import ThreadCommissioner.Connections
import ThreadCommissioner.DiagnosticAnswers
import ThreadCommissioner.EventQueue
import ThreadCommissioner.FieldUpdates
import ThreadCommissioner.JoinerInterleaving
import ThreadCommissioner.JoinerTable
import ThreadCommissioner.KeyExpansion
import ThreadCommissioner.Outcomes
import ThreadCommissioner.ParserBounds
import ThreadCommissioner.PeerAuthentication
import ThreadCommissioner.PskcDerivation
import ThreadCommissioner.Quoting
import ThreadCommissioner.RecordBinding
import ThreadCommissioner.Retransmissions
import ThreadCommissioner.Splitting
import ThreadCommissioner.SteeringRuns
import ThreadCommissioner.TopologyGraph
import ThreadCommissioner.TopologyWalks
import ThreadCommissioner.TranscriptAgreement
