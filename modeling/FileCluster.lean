import FileCluster.Main
import FileCluster.Proofs.Fleet.Created
import FileCluster.Proofs.Fleet.Overlap
import FileCluster.Proofs.Fleet.Servable
import FileCluster.Proofs.Naming.Change
import FileCluster.Proofs.Naming.Refinement
import FileCluster.Proofs.Remote.Serving
import FileCluster.Proofs.Wire.Format
import FileCluster.Proofs.Remote.Lifecycle
import FileCluster.Proofs.Disk.Contents
import FileCluster.Proofs.Storage.Bytes
import FileCluster.Proofs.Client.Pieces
import FileCluster.Proofs.Client.Transfer
import FileCluster.Proofs.Path.Written
import FileCluster.Proofs.Storage.Outcomes
import FileCluster.Proofs.Cluster.FailedStart
import FileCluster.Proofs.Remote.Answers
import FileCluster.Proofs.Naming.Fairness
import FileCluster.Proofs.Client.Capacity
import FileCluster.Proofs.Path.Local
